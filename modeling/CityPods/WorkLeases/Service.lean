import CityPods.Foundation.History
import CityPods.WorkLeases.Lease

/-! # The work-lease service

Every entry point of the lease ledger as a call with its arguments. The `now`
of a call is the time at which it starts.
-/

namespace CityPods.WorkLeases

open Foundation

inductive Call
  | claim (sourceKey uid owner : String) (ttl : Int) (pipelineVersion : String) (now : Int)
      (updateIndex : Bool)
  | renew (sourceKey uid owner : String) (ttl now : Int) (updateIndex : Bool)
  | release (sourceKey uid owner : String) (state : TerminalLeaseState) (now : Int)
      (updateIndex : Bool)
  | abandon (sourceKey uid owner : String) (now : Int) (updateIndex : Bool)
  | requeueFailed (candidates : List (String × String)) (now : Int) (dryRun : Bool)
  | reap (candidates : List (String × String)) (now : Int) (dryRun : Bool)
  | reapIndexed (now : Int) (dryRun : Bool) (bucketCount : Nat) (integrity : Integrity)

namespace Call

def now : Call → Int
  | .claim _ _ _ _ _ now _ => now
  | .renew _ _ _ _ now _ => now
  | .release _ _ _ _ now _ => now
  | .abandon _ _ _ now _ => now
  | .requeueFailed _ now _ => now
  | .reap _ now _ => now
  | .reapIndexed now _ _ _ => now

end Call

inductive Reply
  | lease (lease : Option WorkLease)
  | settled (success : Bool)
  | requeueSummary (summary : RequeueSummary)
  | swept (counts : SweepCounts)
  | indexedSummary (summary : IndexedSummary)
  deriving DecidableEq

def programOf : Call → LeaseProgram Reply
  | .claim sourceKey uid owner ttl pipelineVersion now updateIndex => do
      return .lease (← claim sourceKey uid owner ttl pipelineVersion now updateIndex)
  | .renew sourceKey uid owner ttl now updateIndex => do
      return .lease (← renew sourceKey uid owner ttl now updateIndex)
  | .release sourceKey uid owner state now updateIndex => do
      return .settled (← release sourceKey uid owner state now updateIndex)
  | .abandon sourceKey uid owner now updateIndex => do
      return .settled (← abandon sourceKey uid owner now updateIndex)
  | .requeueFailed candidates now dryRun => do
      return .requeueSummary (← requeueFailed now dryRun candidates {})
  | .reap candidates now dryRun => do
      return .swept (← reap now dryRun candidates {})
  | .reapIndexed now dryRun bucketCount integrity => do
      return .indexedSummary (← reapIndexed now dryRun bucketCount integrity)

@[reducible] def service : Service String Stored Query Note Int where
  Call := Call
  Result := Reply
  program := programOf
  mayStart now call := call.now == now

def IsBucketKey (key : String) : Prop := ∃ n, key = indexBucketKey n

theorem leaseKey_ne_bucketKey (sourceKey uid : String) : ¬ IsBucketKey (leaseKey sourceKey uid) := by
  rintro ⟨n, equal⟩
  have twelfth := congrArg (fun key => key.toList[11]?) equal
  simp [leaseKey, indexBucketKey, leasePrefix, indexPrefix, toString] at twelfth

end CityPods.WorkLeases
