import CityPods.WorkLeases.Writes

/-! # Mutual exclusion of work leases

What a worker believes about its own lease is read off the history of writes. A
belief is either backed by the current lease object, or has expired and been
superseded by another worker's claim.
-/

namespace CityPods.WorkLeases

open Foundation

namespace Call

def claimant : Call → Option String
  | .claim _ _ owner _ _ _ _ => some owner
  | _ => none

/-- The worker a call acts for as the holder of the lease. -/
def holder : Call → Option String
  | .renew _ _ owner _ _ _ => some owner
  | .release _ _ owner _ _ _ => some owner
  | .abandon _ _ owner _ _ => some owner
  | _ => none

/-- The expiry `owner` goes by after this call has replaced the lease `before`
by `after`: set by its own claims and renewals, cleared by its own release or
abandonment and by a sweep that settles its lease. -/
def belief (call : Call) (owner : String) (before after : Option WorkLease)
    (old : Option Int) : Option Int :=
  match call with
  | .claim _ _ caller _ _ _ _ => if caller = owner then after.bind (·.leaseExpiry) else old
  | .renew _ _ caller _ _ _ => if caller = owner then after.bind (·.leaseExpiry) else old
  | .release _ _ caller _ _ _ => if caller = owner then none else old
  | .abandon _ _ caller _ _ => if caller = owner then none else old
  | .requeueFailed _ _ _ => old
  | .reap _ _ _ => if before.any (·.owner == owner) then none else old
  | .reapIndexed _ _ _ _ => if before.any (·.owner == owner) then none else old

end Call

/-! ## One lease and its believers -/

/-- The lease object `current` as of `now`, what each worker believes about it,
and the worker that claimed it last. -/
structure Exclusive (now : Int) (current : Option WorkLease) (belief : String → Option Int)
    (claimant : Option String) : Prop where
  owner : ∀ lease other, current = some lease → lease.state = .leased →
    claimant = some other → lease.owner = other
  backed : ∀ owner expiry, belief owner = some expiry →
    (∃ lease, current = some lease ∧ lease.state = .leased ∧ lease.owner = owner ∧
      lease.leaseExpiry = some expiry) ∨
    (expiry ≤ now ∧ ∃ other, claimant = some other ∧ other ≠ owner)

namespace Exclusive

variable {now time : Int} {current : Option WorkLease} {belief : String → Option Int}
  {claimant : Option String}

theorem initial (current : Option WorkLease) : Exclusive now current (fun _ => none) none where
  owner := by
    intro lease other _ _ claimed
    cases claimed
  backed := by
    intro owner expiry believed
    cases believed

theorem later (exclusive : Exclusive now current belief claimant) (le : now ≤ time) :
    Exclusive time current belief claimant where
  owner := exclusive.owner
  backed := by
    intro owner expiry believed
    rcases exclusive.backed owner expiry believed with held | ⟨expired, other⟩
    · exact .inl held
    · exact .inr ⟨expired.trans le, other⟩

variable {lease : WorkLease} {owner : String} {expiry : Int}

theorem superseded (exclusive : Exclusive now current belief claimant)
    (stored : current = some lease)
    (believed : belief owner = some expiry) (different : lease.owner ≠ owner) :
    expiry ≤ now ∧ ∃ other, claimant = some other ∧ other ≠ owner := by
  rcases exclusive.backed owner expiry believed with ⟨held, same, _, owned, _⟩ | expired
  · rw [stored] at same
    cases same
    exact absurd owned different
  · exact expired

theorem claimable (exclusive : Exclusive now current belief claimant) {start : Int}
    {pipelineVersion : String} (claims : mayClaim current pipelineVersion start = true)
    (believed : belief owner = some expiry) :
    expiry ≤ start ∨ (expiry ≤ now ∧ ∃ other, claimant = some other ∧ other ≠ owner) := by
  rcases exclusive.backed owner expiry believed with
    ⟨lease, same, leased, _, expires⟩ | expired
  · subst same
    simp only [mayClaim, WorkLease.isStaleTerminal, WorkLease.isClaimable, leased,
      WorkLease.isExpired, expires] at claims
    exact .inl (by simpa using claims)
  · exact .inr expired

/-- A write that changes no owner and leaves the item unleased. -/
theorem settled (exclusive : Exclusive now current belief claimant) {after : WorkLease}
    (stored : current = some lease) (unleased : after.state ≠ .leased) {next : String → Option Int}
    (kept : ∀ owner expiry, next owner = some expiry →
      belief owner = some expiry ∧ lease.owner ≠ owner) :
    Exclusive now (some after) next claimant where
  owner := by
    intro other last same leased
    cases same
    exact absurd leased unleased
  backed := by
    intro owner expiry believed
    obtain ⟨believed, different⟩ := kept owner expiry believed
    exact .inr (exclusive.superseded stored believed different)

end Exclusive

theorem Exclusive.step {now : Int} {belief : String → Option Int} {claimant : Option String}
    {call : Call} {key : String} {before after : Option Stored}
    (exclusive : Exclusive now (leaseOf before) belief claimant)
    (write : LeaseWrite call key before after) (started : call.now ≤ now) :
    Exclusive now (leaseOf after)
      (fun owner => call.belief owner (leaseOf before) (leaseOf after) (belief owner))
      (call.claimant.or claimant) := by
  cases write with
  | claimed claims =>
      constructor
      · intro lease other same leased last
        cases same
        cases last
        rfl
      · intro owner expiry believed
        simp only [Call.belief] at believed
        split at believed
        · next own =>
            subst own
            exact .inl ⟨_, rfl, rfl, rfl, believed⟩
        · next different =>
            refine .inr ⟨?_, _, rfl, different⟩
            rcases exclusive.claimable claims believed with early | ⟨expired, _⟩
            · exact early.trans started
            · exact expired
  | renewed read held =>
      obtain ⟨owned, leased⟩ := WorkLease.isHeldBy_owner held
      constructor
      · intro lease other same _ last
        cases same
        have last := exclusive.owner _ other read leased last
        exact last
      · intro owner expiry believed
        simp only [Call.belief] at believed
        split at believed
        · next own =>
            subst own
            exact .inl ⟨_, rfl, leased, owned, believed⟩
        · next different =>
            exact .inr (exclusive.superseded read believed (owned ▸ different))
  | released read held =>
      obtain ⟨owned, _⟩ := WorkLease.isHeldBy_owner held
      refine exclusive.settled read (WorkLease.released_unleased _ _ _)
        fun owner expiry believed => ?_
      simp only [Call.belief] at believed
      split at believed
      · cases believed
      · next different => exact ⟨believed, owned ▸ different⟩
  | abandoned read held =>
      obtain ⟨owned, _⟩ := WorkLease.isHeldBy_owner held
      refine exclusive.settled read (WorkLease.requeued_unleased _ _)
        fun owner expiry believed => ?_
      simp only [Call.belief] at believed
      split at believed
      · cases believed
      · next different => exact ⟨believed, owned ▸ different⟩
  | reopened read failed =>
      constructor
      · intro lease other same leased
        cases same
        cases leased
      · intro owner expiry believed
        rcases exclusive.backed owner expiry believed with ⟨lease, same, leased, _⟩ | expired
        · rw [read] at same
          cases same
          rw [failed] at leased
          cases leased
        · exact .inr expired
  | reaped read leased swept =>
      refine exclusive.settled read (WorkLease.swept_unleased swept) fun owner expiry believed => ?_
      simp only [Call.belief, read, Option.any_some, beq_iff_eq] at believed
      split at believed
      · cases believed
      · next different => exact ⟨believed, different⟩
  | reapedIndexed read leased swept =>
      refine exclusive.settled read (WorkLease.swept_unleased swept) fun owner expiry believed => ?_
      simp only [Call.belief, read, Option.any_some, beq_iff_eq] at believed
      split at believed
      · cases believed
      · next different => exact ⟨believed, different⟩

theorem Exclusive.unique {now : Int} {current : Option WorkLease} {belief : String → Option Int}
    {claimant : Option String} (exclusive : Exclusive now current belief claimant)
    {owner other : String} {expiry otherExpiry : Int} (believed : belief owner = some expiry)
    (otherBelieved : belief other = some otherExpiry) (unexpired : now < expiry)
    (otherUnexpired : now < otherExpiry) : owner = other := by
  rcases exclusive.backed owner expiry believed with ⟨lease, stored, _, owned, _⟩ | ⟨expired, _⟩
  · rcases exclusive.backed other otherExpiry otherBelieved with
      ⟨otherLease, otherStored, _, otherOwned, _⟩ | ⟨expired, _⟩
    · rw [stored] at otherStored
      cases otherStored
      exact owned.symm.trans otherOwned
    · omega
  · omega

variable {now : Int} {call : Call} {key : String} {before after : Option Stored}

/-- What a committing claim finds. -/
theorem Exclusive.claimed {belief : String → Option Int} {claimant : Option String}
    (exclusive : Exclusive now (leaseOf before) belief claimant)
    (write : LeaseWrite call key before after) (started : call.now ≤ now) {caller other : String}
    {expiry : Int} (claims : call.claimant = some caller) (believed : belief other = some expiry) :
    expiry ≤ now ∧ ((∀ last, claimant = some last → last = other) → expiry ≤ call.now) := by
  cases write with
  | claimed claimable =>
      rcases exclusive.claimable claimable believed with early | ⟨expired, last, same, different⟩
      · exact ⟨early.trans started, fun _ => early⟩
      · exact ⟨expired, fun unsuperseded => absurd (unsuperseded last same) different⟩
  | _ => cases claims

theorem Exclusive.holds {belief : String → Option Int} {claimant : Option String}
    (exclusive : Exclusive now (leaseOf before) belief claimant)
    (write : LeaseWrite call key before after) {holder last : String}
    (holds : call.holder = some holder) (same : claimant = some last) : last = holder := by
  have owned {existing : WorkLease} {owner : String} {start : Int}
      (read : leaseOf before = some existing) (held : existing.isHeldBy owner start = true) :
      last = owner := by
    obtain ⟨owned, leased⟩ := WorkLease.isHeldBy_owner held
    exact (exclusive.owner _ _ read leased same).symm.trans owned
  cases write with
  | renewed read held => cases holds; exact owned read held
  | released read held => cases holds; exact owned read held
  | abandoned read held => cases holds; exact owned read held
  | _ => cases holds

/-! ## Beliefs over a history -/

def leaseAt (stored : Option (Stored × ETag)) : Option WorkLease := leaseOf (stored.map Prod.fst)

/-- What `owner` goes by after the writes of `history` to the lease under `key`. -/
def belief (key owner : String) : List (Event service) → Option Int
  | [] => none
  | event :: older =>
      if event.key = key then
        event.call.belief owner (leaseAt event.before) (leaseAt event.after)
          (belief key owner older)
      else
        belief key owner older

/-- The worker that claimed the lease under `key` last. -/
def lastClaimant (key : String) : List (Event service) → Option String
  | [] => none
  | event :: older =>
      if event.key = key then event.call.claimant.or (lastClaimant key older)
      else lastClaimant key older

section

variable {store : Store String Stored} (sourceKey uid : String)

theorem leaseWrite_of_valid {event : Event service} {older : List (Event service)}
    (valid : ValidHistory leaseContract store (event :: older))
    (same : event.key = leaseKey sourceKey uid) :
    LeaseWrite event.call event.key
      ((latest store older event.key).map Prod.fst) (event.after.map Prod.fst) := by
  cases valid with
  | cons valid replaces permitted later started =>
      obtain ⟨_, maintenance | ⟨write, _⟩⟩ := permitted
      · exact absurd (same ▸ maintenance.isBucketKey) (leaseKey_ne_bucketKey sourceKey uid)
      · exact replaces ▸ write

theorem exclusive_of_valid {history : List (Event service)}
    (valid : ValidHistory leaseContract store history) {now : Int}
    (recent : ∀ event ∈ history, event.time ≤ now) :
    Exclusive now (leaseAt (latest store history (leaseKey sourceKey uid)))
      (fun owner => belief (leaseKey sourceKey uid) owner history)
      (lastClaimant (leaseKey sourceKey uid) history) := by
  induction history generalizing now with
  | nil => exact .initial _
  | cons event older induction =>
      have write := leaseWrite_of_valid sourceKey uid valid
      cases valid with
      | cons valid replaces permitted later started =>
          have exclusive := induction valid later
          apply Exclusive.later _ (recent event List.mem_cons_self)
          by_cases same : event.key = leaseKey sourceKey uid
          · obtain ⟨start, early, issued⟩ := started
            have stepped := (same ▸ exclusive).step (write same) (by simp_all)
            simpa [belief, lastClaimant, latest, same, leaseAt, replaces] using stepped
          · simpa [belief, lastClaimant, latest, same] using exclusive

end

/-! ## Exclusion in every run -/

/-- A claim that commits finds every other worker's lease expired at that moment,
and expired by its own `now` unless a third worker's claim came in between. A
holder's write never lands on a lease that another worker has claimed since. So
no two workers go by unexpired leases at once. -/
theorem lease_exclusion {store : Store String Stored} (fresh : store.Fresh) {clock : Int}
    {config : Config service} (reached : Reachable (Config.init store clock) config)
    (sourceKey uid : String) :
    (∀ newer event older, config.history = newer ++ event :: older →
      event.key = leaseKey sourceKey uid →
      (∀ claimant other expiry, event.call.claimant = some claimant → other ≠ claimant →
        belief (leaseKey sourceKey uid) other older = some expiry →
        expiry ≤ event.time ∧
          ((∀ last, lastClaimant (leaseKey sourceKey uid) older = some last → last = other) →
            expiry ≤ event.call.now)) ∧
      (∀ holder last, event.call.holder = some holder →
        lastClaimant (leaseKey sourceKey uid) older = some last → last = holder)) ∧
    (∀ owner other expiry otherExpiry,
      belief (leaseKey sourceKey uid) owner config.history = some expiry →
      belief (leaseKey sourceKey uid) other config.history = some otherExpiry →
      config.clock < expiry → config.clock < otherExpiry → owner = other) := by
  have sound := Run.sound programOf_meets fresh reached
  refine ⟨fun newer event older split same => ?_, fun owner other expiry otherExpiry believed
    otherBelieved unexpired otherUnexpired => ?_⟩
  · have valid := ValidHistory.older (split ▸ sound.valid)
    have write := leaseWrite_of_valid sourceKey uid valid same
    cases valid with
    | cons valid replaces permitted later started =>
        have exclusive := exclusive_of_valid sourceKey uid valid later
        obtain ⟨start, early, issued⟩ := started
        have begun : event.call.now ≤ event.time := by simp_all
        rw [same] at write
        exact ⟨fun claimant other expiry claims different believed =>
            exclusive.claimed write begun claims believed,
          fun holder last holds claimed => exclusive.holds write holds claimed⟩
  · have exclusive := exclusive_of_valid sourceKey uid sound.valid
      sound.recent
    exact exclusive.unique believed otherBelieved unexpired otherUnexpired

/-! ## A claim with an early clock reading -/

/-- "B" reads the clock at 10 and stalls. "A" has claimed until 100; at 100 "C"
claims the expired lease and abandons it, and "B" then finds it queued. -/
def stalledClaim : List (Step service) :=
  [.start (.claim "abc" "uid" "A" 100 "" 0 false), .run 0 true, .run 0 true,
    .tick 10, .start (.claim "abc" "uid" "B" 100 "" 10 false),
    .tick 100, .start (.claim "abc" "uid" "C" 100 "" 100 false), .run 2 true, .run 2 true,
    .start (.abandon "abc" "uid" "C" 100 false), .run 3 true, .run 3 true,
    .run 1 true, .run 1 true]

theorem stalledClaim_executes :
    ((Config.init Store.empty 0 : Config service).steps stalledClaim).isSome = true := by
  decide

def afterStalledClaim : Config service :=
  ((Config.init Store.empty 0 : Config service).steps stalledClaim).get stalledClaim_executes

theorem afterStalledClaim_reachable : Reachable (Config.init Store.empty 0) afterStalledClaim :=
  Reachable.of_steps (Option.some_get _).symm

/-- The newest write is a claim with `now` 10 against a belief until 100. -/
def claimsEarly : List (Event service) → Bool
  | event :: older =>
      event.key == leaseKey "abc" "uid" && event.call.claimant == some "B" &&
        belief (leaseKey "abc" "uid") "A" older == some 100 && event.call.now == 10
  | [] => false

theorem afterStalledClaim_early :
    ∃ event older, afterStalledClaim.history = event :: older ∧
      event.key = leaseKey "abc" "uid" ∧ event.call.claimant = some "B" ∧
      belief (leaseKey "abc" "uid") "A" older = some 100 ∧ event.call.now = 10 := by
  have early : claimsEarly afterStalledClaim.history = true := by decide
  cases same : afterStalledClaim.history with
  | nil => simp [claimsEarly, same] at early
  | cons event older =>
      simp only [claimsEarly, same, Bool.and_eq_true, beq_iff_eq] at early
      obtain ⟨⟨⟨key, claimant⟩, believed⟩, now⟩ := early
      exact ⟨event, older, rfl, key, claimant, believed, now⟩

theorem lease_exclusion_afterStalledClaim :
    ∃ event older, afterStalledClaim.history = event :: older ∧
      event.call.claimant = some "B" ∧
      belief (leaseKey "abc" "uid") "A" older = some 100 ∧ 100 ≤ event.time := by
  obtain ⟨event, older, same, key, claimant, believed, _⟩ := afterStalledClaim_early
  have excluded := lease_exclusion Store.empty_fresh afterStalledClaim_reachable "abc" "uid"
  exact ⟨event, older, same, claimant, believed,
    ((excluded.1 [] event older same key).1 "B" "A" 100 claimant (by decide) believed).1⟩

theorem stalled_claim_precedes_expiry :
    ¬ ∀ config : Config service, Reachable (Config.init Store.empty 0) config →
      ∀ newer event older, config.history = newer ++ event :: older →
        event.key = leaseKey "abc" "uid" →
        ∀ claimant other expiry, event.call.claimant = some claimant → other ≠ claimant →
          belief (leaseKey "abc" "uid") other older = some expiry →
          expiry ≤ event.call.now := by
  intro bounded
  obtain ⟨event, older, same, key, claimant, believed, now⟩ := afterStalledClaim_early
  have expired := bounded _ afterStalledClaim_reachable [] event older same key "B" "A" 100
    claimant (by decide) believed
  rw [now] at expired
  exact absurd expired (by decide)

end CityPods.WorkLeases
