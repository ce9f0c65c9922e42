import Mathlib.Data.List.Nodup
import Mathlib.Data.List.Perm.Subperm
import CityPods.Foundation.Objects
import CityPods.Foundation.Raising
import CityPods.Foundation.Sha

/-! # Provider leases

The slots of a provider's domain, held across processes as objects that are written by
compare-and-swap. Acquiring passes, renewing threads and releasing callers interleave one
operation at a time; the ETag and the flags of a lease are memory that its renewing thread
and its releasing caller share. Instants are microseconds.
-/

namespace CityPods.Ops

open Foundation
open Foundation.Objects (Failure)

namespace ProviderLeases

/-! ## Slot objects -/

def acquired : String := "acquired"

def released : String := "released"

structure Payload where
  owner : String
  domain : String
  state : String
  renewedAt : Int
  expiresAt : Option Int
  deriving DecidableEq

/-- What the bytes of an object are parsed to. -/
inductive Data
  | parsed (payload : Payload)
  | unreadable
  deriving DecidableEq

/-- The first part of `_expiry`: an object that does not say when is expired. -/
def expired (data : Data) (now : Int) : Bool :=
  match data with
  | .unreadable => true
  | .parsed payload => payload.expiresAt.all fun expires => decide (expires ≤ now)

def Data.hasState (state : String) : Data → Bool
  | .unreadable => false
  | .parsed payload => payload.state == state

structure Pool where
  domain : String
  /-- `_domain_prefix(domain)` -/
  path : String
  slots : Nat
  ttl : Int

namespace Pool

def slotKey (pool : Pool) (index : Nat) : String :=
  pool.path ++ "slot-" ++ toString index ++ ".json"

def slotKeys (pool : Pool) : List String := (List.range pool.slots).map pool.slotKey

def scanOffset (pool : Pool) (owner : String) : Nat :=
  if pool.slots ≤ 1 then 0 else sha1 (owner ++ ":" ++ pool.domain) % pool.slots

end Pool

/-! ## Shared state -/

/-- A lease is known by the ETag of the write that claimed it. -/
abbrev LeaseId := ETag

/-- The fields of a `ProviderLease` that its threads share. -/
structure LeaseMemory where
  key : String
  etag : ETag
  stop : Bool := false
  lost : Bool := false
  renewing : Bool := false

inductive Flag
  | stop
  | lost
  | renewing

namespace LeaseMemory

def isUp (memory : LeaseMemory) : Flag → Bool
  | .stop => memory.stop
  | .lost => memory.lost
  | .renewing => memory.renewing

def raise (memory : LeaseMemory) : Flag → LeaseMemory
  | .stop => { memory with stop := true }
  | .lost => { memory with lost := true }
  | .renewing => { memory with renewing := true }

@[simp] theorem raise_key (memory : LeaseMemory) (flag : Flag) :
    (memory.raise flag).key = memory.key := by
  cases flag <;> rfl

@[simp] theorem raise_etag (memory : LeaseMemory) (flag : Flag) :
    (memory.raise flag).etag = memory.etag := by
  cases flag <;> rfl

end LeaseMemory

/-- A successful write and the lease it was made for, as no code can see it. -/
structure Write where
  etag : ETag
  key : String
  lease : LeaseId
  data : Data

structure State where
  store : Store String Data
  clock : Int
  memory : LeaseId → Option LeaseMemory := fun _ => none
  /-- Newest first. -/
  writes : List Write := []

namespace State

def object (state : State) (key : String) : Option (Data × ETag) := state.store.object key

/-- Without an author the write claims a lease of its own. -/
def put (state : State) (key : String) (data : Data) (author : Option LeaseId) : State :=
  { state with
    store := state.store.put key data
    writes := ⟨state.store.nextETag, key, author.getD state.store.nextETag, data⟩ :: state.writes }

def remember (state : State) (lease : LeaseId) (memory : LeaseMemory) : State :=
  { state with memory := Function.update state.memory lease (some memory) }

theorem remember_self (state : State) (lease : LeaseId) (memory : LeaseMemory) :
    (state.remember lease memory).memory lease = some memory :=
  Function.update_self ..

theorem remember_other (state : State) {lease other : LeaseId} (memory : LeaseMemory)
    (different : other ≠ lease) : (state.remember lease memory).memory other = state.memory other :=
  Function.update_of_ne different ..

end State

/-! ## Operations -/

inductive Op
  | now
  | get (key : String)
  | put (key : String) (data : Data) (condition : Condition) (author : Option LeaseId)
  | construct (key : String) (etag : ETag)
  | readETag (lease : LeaseId)
  | setETag (lease : LeaseId) (etag : ETag)
  | readFlag (lease : LeaseId) (flag : Flag)
  | setFlag (lease : LeaseId) (flag : Flag)
  /-- Ends with the renewing thread, or by the timeout. -/
  | join (lease : LeaseId)

def interface : Interface where
  Op := Op
  Reply
    | .now => Int
    | .get _ => Except Failure (Option (Data × ETag))
    | .put _ _ _ _ => Except Failure ETag
    | .readETag _ => ETag
    | .readFlag _ _ => Bool
    | .construct _ _ | .setETag _ _ | .setFlag _ _ | .join _ => Unit

inductive Choice
  | works
  | fails
  | tick (clock : Int)

def answer (state : State) : (op : Op) → Choice → Option (interface.Reply op × State)
  | .now, .works => some (state.clock, state)
  | .get key, .works => some (.ok (state.object key), state)
  | .get _, .fails => some (.error .failed, state)
  | .put key data condition author, .works =>
      if state.store.admits key condition then
        some (.ok state.store.nextETag, state.put key data author)
      else some (.error .conflict, state)
  | .put _ _ _ _, .fails => some (.error .failed, state)
  | .construct key etag, .works => some ((), state.remember etag { key := key, etag := etag })
  | .readETag lease, .works => (state.memory lease).map fun memory => (memory.etag, state)
  | .setETag lease etag, .works => (state.memory lease).map fun memory =>
      ((), state.remember lease { memory with etag := etag })
  | .readFlag lease flag, .works => (state.memory lease).map fun memory =>
      (memory.isUp flag, state)
  | .setFlag lease flag, .works => (state.memory lease).map fun memory =>
      ((), state.remember lease (memory.raise flag))
  | .join _, .works => some ((), state)
  | _, _ => none

/-- The clock never goes back. -/
def drift (state : State) : Choice → Option State
  | .tick clock => if state.clock ≤ clock then some { state with clock := clock } else none
  | _ => none

def world : World interface where
  State := State
  Choice := Choice
  answer := answer
  drift := drift

abbrev Calls (α : Type) : Type := Raising interface Failure α

def now : Calls Int := Raising.perform Op.now .ok

def getBytes (key : String) : Calls (Option (Data × ETag)) := Raising.perform (Op.get key) id

def putCas (key : String) (data : Data) (condition : Condition) (author : Option LeaseId) :
    Calls ETag :=
  Raising.perform (Op.put key data condition author) id

def construct (key : String) (etag : ETag) : Calls Unit :=
  Raising.perform (Op.construct key etag) .ok

def readETag (lease : LeaseId) : Calls ETag := Raising.perform (Op.readETag lease) .ok

def setETag (lease : LeaseId) (etag : ETag) : Calls Unit :=
  Raising.perform (Op.setETag lease etag) .ok

def readFlag (lease : LeaseId) (flag : Flag) : Calls Bool :=
  Raising.perform (Op.readFlag lease flag) .ok

def setFlag (lease : LeaseId) (flag : Flag) : Calls Unit :=
  Raising.perform (Op.setFlag lease flag) .ok

def join (lease : LeaseId) : Calls Unit := Raising.perform (Op.join lease) .ok

/-! ## Programs -/

section

variable (pool : Pool) (owner : String)

def encodePayload (state : String) (expiresAt : Int) : Calls Data := do
  let now ← now
  return .parsed
    { owner := owner, domain := pool.domain, state := state, renewedAt := now,
      expiresAt := some expiresAt }

def payload : Calls Data := do
  let now ← now
  encodePayload pool owner acquired (now + pool.ttl)

/-- A tombstone whose expiry is already past. -/
def releasedPayload : Calls Data := do
  let now ← now
  encodePayload pool owner released now

/-- `none` if a sibling won the slot between the read and the write. -/
def tryClaim (key : String) (condition : Condition) : Calls (Option LeaseId) := do
  let data ← payload pool owner
  match ← Raising.attempt (putCas key data condition none) with
  | .ok etag => return some etag
  | .error .conflict => return none
  | .error .failed => throw .failed

def finish (key : String) (etag : ETag) : Calls (Option LeaseId) := do
  construct key etag
  setFlag etag .renewing
  return some etag

/-- A pass ends with the slot it has claimed; without one it goes on. -/
def finishOr (key : String) (goOn : Calls (Option LeaseId)) :
    Option LeaseId → Calls (Option LeaseId)
  | some etag => finish key etag
  | none => goOn

/-- The slots that are still to be looked at, judged by the clock as it was at the start. -/
def sweep (now : Int) : List Nat → Calls (Option LeaseId)
  | [] => return none
  | index :: later => do
      match ← getBytes (pool.slotKey index) with
      | none =>
          let claimed ← tryClaim pool owner (pool.slotKey index) .ifNoneMatch
          finishOr (pool.slotKey index) (sweep now later) claimed
      | some (data, currentETag) =>
          if expired data now then
            let claimed ← tryClaim pool owner (pool.slotKey index) (.ifMatch currentETag)
            finishOr (pool.slotKey index) (sweep now later) claimed
          else sweep now later

def tryOnePass : Calls (Option LeaseId) := do
  let now ← now
  sweep pool owner now
    ((List.range pool.slots).map fun turn => (pool.scanOffset owner + turn) % pool.slots)

/-- The thread is let to live for some number of rounds. -/
def renewWhileHeld (lease : LeaseId) (key : String) : Nat → Calls Unit
  | 0 => return ()
  | rounds + 1 => do
      if ← readFlag lease .stop then return ()
      else
        let data ← payload pool owner
        let etag ← readETag lease
        match ← Raising.attempt (putCas key data (.ifMatch etag) (some lease)) with
        | .ok etag =>
            setETag lease etag
            renewWhileHeld lease key rounds
        | .error .conflict => setFlag lease .lost
        | .error .failed => renewWhileHeld lease key rounds

/-- Whatever the write raises is logged and dropped. -/
def release (lease : LeaseId) (key : String) : Calls Unit := do
  setFlag lease .stop
  join lease
  if ← readFlag lease .lost then return ()
  else
    let data ← releasedPayload pool owner
    let etag ← readETag lease
    let _ ← Raising.attempt (putCas key data (.ifMatch etag) (some lease))
    return ()

end

inductive Call
  | pass (owner : String)
  | renew (owner : String) (lease : LeaseId) (key : String) (rounds : Nat)
  | release (owner : String) (lease : LeaseId) (key : String)

def Call.author : Call → Option LeaseId
  | .pass _ => none
  | .renew _ lease _ _ => some lease
  | .release _ lease _ => some lease

/-- The state that the objects of a call are written in. -/
def Call.writes : Call → String
  | .pass _ => acquired
  | .renew _ _ _ _ => acquired
  | .release _ _ _ => released

def Call.session (pool : Pool) : Call → Calls (Option LeaseId)
  | .pass owner => tryOnePass pool owner
  | .renew owner lease key rounds => do
      renewWhileHeld pool owner lease key rounds
      return none
  | .release owner lease key => do
      ProviderLeases.release pool owner lease key
      return none

/-- A renewing thread and a release belong to a lease that a pass has returned. -/
def mayStart (state : State) : Call → Bool
  | .pass _ => true
  | .renew _ lease key _ =>
      (state.memory lease).any fun memory => memory.key == key && memory.renewing
  | .release _ lease key => (state.memory lease).any fun memory => memory.key == key

def holders (pool : Pool) : Activity world where
  Call := Call
  Result := Except Failure (Option LeaseId)
  task call := (call.session pool).run
  mayStart := mayStart

/-! ## Who may write what -/

/-- The slot carries a payload of the lease. -/
def State.Carries (state : State) (key : String) (lease : LeaseId) : Prop :=
  ∃ data etag, state.object key = some (data, etag) ∧ ⟨etag, key, lease, data⟩ ∈ state.writes

def State.Owns (state : State) (lease : LeaseId) (key : String) (etag : ETag) : Prop :=
  ∃ data, data.hasState acquired = true ∧ ⟨etag, key, lease, data⟩ ∈ state.writes

def State.lastWrite (state : State) (lease : LeaseId) : Option Write :=
  state.writes.find? fun write => write.lease == lease

/-- A claim replaces nothing or what has expired; a renewal or a release replaces what its
own lease has acquired. -/
def Permitted (pool : Pool) (state : State) (key : String) (data : Data) :
    Option LeaseId → Prop
  | none => key ∈ pool.slotKeys ∧ data.hasState acquired = true ∧
      ∀ found etag, state.object key = some (found, etag) → expired found state.clock = true
  | some lease =>
      (data.hasState acquired = true ∨
        data.hasState released = true ∧ expired data state.clock = true) ∧
      ∃ found etag, state.object key = some (found, etag) ∧ found.hasState acquired = true ∧
        ⟨etag, key, lease, found⟩ ∈ state.writes

/-- The slots, the memory of the leases and the writes that were made agree. -/
structure Coherent (pool : Pool) (state : State) : Prop where
  fresh : state.store.Fresh
  ordered : state.writes.Pairwise fun newer older => older.etag < newer.etag
  numbered : ∀ write ∈ state.writes,
    write.lease ≤ write.etag ∧ write.etag < state.store.nextETag
  slotted : ∀ write ∈ state.writes, write.key ∈ pool.slotKeys
  shared : ∀ write ∈ state.writes, ∀ other ∈ state.writes, write.lease = other.lease →
    write.key = other.key
  placed : ∀ write ∈ state.writes, ∃ data etag, state.object write.key = some (data, etag) ∧
    write.etag ≤ etag ∧ (write.etag = etag → write.data = data)
  final : ∀ write ∈ state.writes, write.data.hasState released = true →
    expired write.data state.clock = true ∧
      ∀ other ∈ state.writes, other.lease = write.lease → other.etag ≤ write.etag
  current : ∀ write ∈ state.writes, state.object write.key = some (write.data, write.etag) ∨
    (∃ other ∈ state.writes, other.lease = write.lease ∧ write.etag < other.etag) ∨
      expired write.data state.clock = true
  remembered : ∀ lease memory, state.memory lease = some memory →
    state.Owns lease memory.key memory.etag

/-- The clock, the ETags and the writes only grow, an object with an old ETag is the object
that had it, and a lease stays at its slot. -/
structure Onward (state after : State) : Prop where
  clock : state.clock ≤ after.clock
  nextETag : state.store.nextETag ≤ after.store.nextETag
  kept : ∀ key data etag, after.object key = some (data, etag) → etag < state.store.nextETag →
    state.object key = some (data, etag)
  grown : ∀ write ∈ state.writes, write ∈ after.writes
  news : ∀ write ∈ after.writes, write.etag < state.store.nextETag → write ∈ state.writes

variable {data : Data}

theorem acquired_not_released (holds : data.hasState acquired = true) :
    data.hasState released = false := by
  cases data with
  | unreadable => rfl
  | parsed payload =>
      have named : payload.state = acquired := beq_iff_eq.mp holds
      show (payload.state == released) = false
      rw [named]
      decide

theorem expired_later {clock later : Int} (passed : clock ≤ later)
    (spent : expired data clock = true) : expired data later = true := by
  cases data with
  | unreadable => rfl
  | parsed payload =>
      cases expires : payload.expiresAt with
      | none => simp [expired, expires]
      | some instant =>
          simp only [expired, expires, Option.all_some, decide_eq_true_eq] at spent ⊢
          omega

namespace Onward

theorem refl (state : State) : Onward state state :=
  ⟨le_refl _, Nat.le_refl _, fun _ _ _ stored _ => stored, fun _ member => member,
    fun _ member _ => member⟩

theorem trans {first second third : State} (earlier : Onward first second)
    (later : Onward second third) : Onward first third where
  clock := earlier.clock.trans later.clock
  nextETag := Nat.le_trans earlier.nextETag later.nextETag
  kept key data etag stored old :=
    earlier.kept key data etag
      (later.kept key data etag stored (Nat.lt_of_lt_of_le old earlier.nextETag)) old
  grown write member := later.grown write (earlier.grown write member)
  news write member old :=
    earlier.news write (later.news write member (Nat.lt_of_lt_of_le old earlier.nextETag)) old

theorem tick (state : State) {clock : Int} (ahead : state.clock ≤ clock) :
    Onward state { state with clock := clock } :=
  ⟨ahead, Nat.le_refl _, fun _ _ _ stored _ => stored, fun _ member => member,
    fun _ member _ => member⟩

theorem remember (state : State) (lease : LeaseId) (memory : LeaseMemory) :
    Onward state (state.remember lease memory) :=
  ⟨le_refl _, Nat.le_refl _, fun _ _ _ stored _ => stored, fun _ member => member,
    fun _ member _ => member⟩

theorem put (state : State) (key : String) (data : Data) (author : Option LeaseId) :
    Onward state (state.put key data author) where
  clock := le_refl _
  nextETag := Nat.le_succ _
  kept other stored etag present old := by
    by_cases same : other = key
    · subst same
      cases (state.store.put_object_same other data).symm.trans present
      exact absurd old (Nat.lt_irrefl _)
    · exact (state.store.put_object_other data same).symm.trans present
  grown write member := List.mem_cons_of_mem _ member
  news write member old := by
    rcases List.mem_cons.mp member with rfl | earlier
    · exact absurd old (Nat.lt_irrefl _)
    · exact earlier

variable {state later : State} {key : String} {etag : ETag}

theorem owns (onward : Onward state later) {lease : LeaseId}
    (owned : state.Owns lease key etag) : later.Owns lease key etag := by
  obtain ⟨data, looks, member⟩ := owned
  exact ⟨data, looks, onward.grown _ member⟩

/-- What was read of a slot is what a write under its ETag replaces. -/
theorem admits_ifMatch (onward : Onward state later) (fresh : state.store.Fresh)
    (found : state.object key = some (data, etag))
    (admitted : later.store.admits key (.ifMatch etag) = true) :
    later.object key = some (data, etag) := by
  obtain ⟨⟨stored, tag⟩, present, same⟩ := (Option.any_eq_true ..).mp admitted
  cases beq_iff_eq.mp same
  have before := onward.kept key stored tag present (fresh key data tag found)
  cases found.symm.trans before
  exact present

end Onward

namespace Coherent

variable {pool : Pool} {state : State}

theorem same_write (coherent : Coherent pool state) {write other : Write}
    (member : write ∈ state.writes) (also : other ∈ state.writes)
    (same : write.etag = other.etag) : write = other := by
  have distinct : (state.writes.map Write.etag).Nodup :=
    List.pairwise_map.mpr (coherent.ordered.imp fun newer => (Nat.ne_of_lt newer).symm)
  exact List.inj_on_of_nodup_map distinct member also same

variable {lease : LeaseId}

theorem carries_unique (coherent : Coherent pool state) {key : String} {other : LeaseId}
    (carries : state.Carries key lease) (also : state.Carries key other) : lease = other := by
  obtain ⟨data, etag, present, member⟩ := carries
  obtain ⟨_, _, here, listed⟩ := also
  cases present.symm.trans here
  exact congrArg Write.lease (coherent.same_write member listed rfl)

variable {write : Write}

theorem unreleased (coherent : Coherent pool state) {key : String} {data : Data}
    {etag : ETag} (present : state.object key = some (data, etag))
    (looks : data.hasState acquired = true) (member : ⟨etag, key, lease, data⟩ ∈ state.writes)
    (written : write ∈ state.writes) (same : write.lease = lease) :
    write.data.hasState released = false := by
  by_contra spent
  rw [Bool.not_eq_false] at spent
  have newest : etag ≤ write.etag := (coherent.final write written spent).2 _ member same.symm
  obtain ⟨stored, tag, here, below, _⟩ := coherent.placed write written
  rw [coherent.shared write written _ member same] at here
  cases present.symm.trans here
  cases coherent.same_write written member (Nat.le_antisymm below newest)
  rw [acquired_not_released looks] at spent
  cases spent

theorem holds_slot (coherent : Coherent pool state) (last : state.lastWrite lease = some write)
    (live : expired write.data state.clock = false) :
    write.lease = lease ∧ write.key ∈ pool.slotKeys ∧ write ∈ state.writes ∧
      state.object write.key = some (write.data, write.etag) := by
  obtain ⟨named, newer, older, split, none⟩ := List.find?_eq_some_iff_append.mp last
  have same : write.lease = lease := beq_iff_eq.mp named
  have member : write ∈ state.writes := by simp [split]
  refine ⟨same, coherent.slotted write member, member, ?_⟩
  rcases coherent.current write member with here | ⟨other, also, sibling, above⟩ | spent
  · exact here
  · have ordered := coherent.ordered
    rw [split] at also ordered
    have sorted := (List.pairwise_append.mp ordered).2.1
    rcases List.mem_append.mp also with before | after
    · have differs := none other before
      simp [sibling, same] at differs
    · rcases List.mem_cons.mp after with rfl | behind
      · exact absurd above (Nat.lt_irrefl _)
      · exact absurd above (Nat.lt_asymm (List.rel_of_pairwise_cons sorted behind))
  · rw [spent] at live
    cases live

/-! ## Every step keeps them in agreement -/

theorem tick (coherent : Coherent pool state) {clock : Int} (ahead : state.clock ≤ clock) :
    Coherent pool { state with clock := clock } where
  fresh := coherent.fresh
  ordered := coherent.ordered
  numbered := coherent.numbered
  slotted := coherent.slotted
  shared := coherent.shared
  placed := coherent.placed
  final write member spent :=
    ⟨expired_later ahead (coherent.final write member spent).1,
      (coherent.final write member spent).2⟩
  current write member :=
    (coherent.current write member).imp_right (Or.imp_right (expired_later ahead))
  remembered := coherent.remembered

theorem remember (coherent : Coherent pool state) {memory : LeaseMemory}
    (owned : state.Owns lease memory.key memory.etag) :
    Coherent pool (state.remember lease memory) where
  fresh := coherent.fresh
  ordered := coherent.ordered
  numbered := coherent.numbered
  slotted := coherent.slotted
  shared := coherent.shared
  placed := coherent.placed
  final := coherent.final
  current := coherent.current
  remembered other stored known := by
    by_cases same : other = lease
    · subst same
      cases (state.remember_self other memory).symm.trans known
      exact owned
    · exact coherent.remembered other stored ((state.remember_other memory same).symm.trans known)

variable {key : String} {data : Data} {author : Option LeaseId}

theorem same_slot (coherent : Coherent pool state)
    (permitted : Permitted pool state key data author) (member : write ∈ state.writes)
    (same : write.lease = author.getD state.store.nextETag) : write.key = key := by
  cases author with
  | none =>
      have old := coherent.numbered write member
      rw [same, Option.getD_none] at old
      exact absurd (Nat.lt_of_le_of_lt old.1 old.2) (Nat.lt_irrefl _)
  | some lease =>
      obtain ⟨_, found, etag, _, _, owned⟩ := permitted
      exact coherent.shared write member _ owned same

theorem still_unreleased (coherent : Coherent pool state)
    (permitted : Permitted pool state key data author)
    (member : write ∈ state.writes) (same : write.lease = author.getD state.store.nextETag) :
    write.data.hasState released = false := by
  cases author with
  | none =>
      have old := coherent.numbered write member
      rw [same, Option.getD_none] at old
      exact absurd (Nat.lt_of_le_of_lt old.1 old.2) (Nat.lt_irrefl _)
  | some lease =>
      obtain ⟨_, found, etag, present, looks, owned⟩ := permitted
      exact coherent.unreleased present looks owned member same

theorem replaced (coherent : Coherent pool state) (permitted : Permitted pool state key data author)
    (member : write ∈ state.writes) (present : state.object key = some (write.data, write.etag)) :
    author.getD state.store.nextETag = write.lease ∨ expired write.data state.clock = true := by
  cases author with
  | none => exact .inr (permitted.2.2 _ _ present)
  | some lease =>
      obtain ⟨_, found, etag, here, _, owned⟩ := permitted
      cases present.symm.trans here
      exact .inl (congrArg Write.lease (coherent.same_write owned member rfl))

theorem put (coherent : Coherent pool state) (permitted : Permitted pool state key data author) :
    Coherent pool (state.put key data author) where
  fresh := coherent.fresh.put key data
  ordered := List.pairwise_cons.mpr
    ⟨fun write member => (coherent.numbered write member).2, coherent.ordered⟩
  numbered := by
    refine List.forall_mem_cons.mpr ⟨⟨?_, Nat.lt_succ_self _⟩, fun write member => ?_⟩
    · cases author with
      | none => exact Nat.le_refl _
      | some lease =>
          obtain ⟨_, found, etag, _, _, owned⟩ := permitted
          have old := coherent.numbered _ owned
          exact Nat.le_of_lt (Nat.lt_of_le_of_lt old.1 old.2)
    · have old := coherent.numbered write member
      exact ⟨old.1, Nat.lt_succ_of_lt old.2⟩
  slotted := by
    refine List.forall_mem_cons.mpr ⟨?_, coherent.slotted⟩
    cases author with
    | none => exact permitted.1
    | some lease =>
        obtain ⟨_, found, etag, _, _, owned⟩ := permitted
        exact coherent.slotted ⟨etag, key, lease, found⟩ owned
  shared := by
    refine List.forall_mem_cons.mpr ⟨List.forall_mem_cons.mpr ⟨fun _ => rfl, ?_⟩, ?_⟩
    · intro other member same
      exact (coherent.same_slot permitted member same.symm).symm
    · intro write member
      refine List.forall_mem_cons.mpr ⟨fun same => ?_, coherent.shared write member⟩
      exact coherent.same_slot permitted member same
  placed := by
    refine List.forall_mem_cons.mpr ⟨?_, fun write member => ?_⟩
    · exact ⟨data, _, state.store.put_object_same key data, Nat.le_refl _, fun _ => rfl⟩
    · by_cases same : write.key = key
      · have old := (coherent.numbered write member).2
        refine ⟨data, state.store.nextETag, ?_, Nat.le_of_lt old,
          fun equal => absurd equal (Nat.ne_of_lt old)⟩
        rw [same]
        exact state.store.put_object_same key data
      · obtain ⟨stored, etag, present, rest⟩ := coherent.placed write member
        exact ⟨stored, etag, (state.store.put_object_other data same).trans present, rest⟩
  final := by
    refine List.forall_mem_cons.mpr ⟨fun spent => ⟨?_, ?_⟩, fun write member spent => ?_⟩
    · cases author with
      | none =>
          rw [acquired_not_released permitted.2.1] at spent
          cases spent
      | some lease =>
          rcases permitted.1 with looks | ⟨_, past⟩
          · rw [acquired_not_released looks] at spent
            cases spent
          · exact past
    · exact List.forall_mem_cons.mpr ⟨fun _ => Nat.le_refl _,
        fun other member _ => Nat.le_of_lt (coherent.numbered other member).2⟩
    · have earlier := coherent.final write member spent
      refine ⟨earlier.1, List.forall_mem_cons.mpr ⟨fun same => ?_, earlier.2⟩⟩
      rw [coherent.still_unreleased permitted member same.symm] at spent
      cases spent
  current := by
    refine List.forall_mem_cons.mpr ⟨.inl (state.store.put_object_same key data), ?_⟩
    intro write member
    rcases coherent.current write member with here | ⟨other, also, above⟩ | spent
    · by_cases same : write.key = key
      · rw [same] at here
        rcases coherent.replaced permitted member here with own | spent
        · exact .inr (.inl ⟨_, List.mem_cons_self, own, (coherent.numbered write member).2⟩)
        · exact .inr (.inr spent)
      · exact .inl ((state.store.put_object_other data same).trans here)
    · exact .inr (.inl ⟨other, List.mem_cons_of_mem _ also, above⟩)
    · exact .inr (.inr spent)
  remembered lease memory known :=
    (Onward.put state key data author).owns (coherent.remembered lease memory known)

end Coherent

/-! ## What a call keeps to -/

/-- What any step of anyone does. -/
def Passes (pool : Pool) (state after : State) : Prop :=
  Onward state after ∧ (Coherent pool state → Coherent pool after)

/-- The step writes nothing, or it makes one permitted write of the given state. -/
def Touches (pool : Pool) (author : Option LeaseId) (named : String) (state after : State) : Prop :=
  (after.store = state.store ∧ after.writes = state.writes) ∨
    ∃ key data, data.hasState named = true ∧ Permitted pool state key data author ∧
      after = state.put key data author

def bargain (pool : Pool) (author : Option LeaseId) (named : String) : Bargain world where
  rely _ := Passes pool
  assumes _ _ _ := True
  guarantee state after := Passes pool state after ∧ Touches pool author named state after
  rely_refl _ state := ⟨.refl state, id⟩
  rely_trans earlier later := ⟨earlier.1.trans later.1, later.2 ∘ earlier.2⟩

/-- Beside the others the session writes only what its author may write, and it returns only
what is good by then. -/
def Sure {α : Type} (pool : Pool) (author : Option LeaseId) (named : String) (session : Calls α)
    (state : State) (good : α → State → Prop) : Prop :=
  session.Safe world (bargain pool author named)
    (fun outcome later => ∀ result, outcome = .ok result →
      Onward state later ∧ Coherent pool later ∧ good result later) state

section

variable {pool : Pool} {author : Option LeaseId} {named : String} {state : State} {α β : Type}
  {good : α → State → Prop}

theorem sure_pure (coherent : Coherent pool state) {result : α}
    (kept : ∀ later, Onward state later → good result later) :
    Sure pool author named (pure result) state good := by
  intro later passed other same
  cases same
  exact ⟨passed.1, passed.2 coherent, kept later passed.1⟩

theorem sure_throw {error : Failure} : Sure pool author named (throw error) state good := by
  intro later passed result same
  cases same

variable {session : Calls α}

theorem Sure.bind {rest : α → Calls β} {best : β → State → Prop}
    (first : Sure pool author named session state good)
    (continued : ∀ result later, Onward state later → Coherent pool later → good result later →
      Sure pool author named (rest result) later best) :
    Sure pool author named (session >>= rest) state best := by
  refine Raising.Safe.bind first ?_ ?_
  · intro result later kept
    obtain ⟨onward, coherent, holds⟩ := kept result rfl
    refine (continued result later onward coherent holds).weaken ?_
    intro outcome last promised other same
    have reached := promised other same
    exact ⟨onward.trans reached.1, reached.2⟩
  · intro error later _ last _ result same
    cases same

theorem Sure.weaken {weaker : α → State → Prop} (sure : Sure pool author named session state good)
    (implies : ∀ result later, Onward state later → good result later → weaker result later) :
    Sure pool author named session state weaker := by
  refine Raising.Safe.weaken sure ?_
  intro outcome later promised result same
  have reached := promised result same
  exact ⟨reached.1, reached.2.1, implies result later reached.1 reached.2.2⟩

/-! ### Single operations -/

variable {op : Op} {outcome : interface.Reply op → Except Failure α}

theorem sure_perform (coherent : Coherent pool state)
    (stepped : ∀ later, Onward state later → Coherent pool later → ∀ choice reply after,
      answer later op choice = some (reply, after) →
        Onward later after ∧ Coherent pool after ∧ Touches pool author named later after ∧
          ∀ result, outcome reply = .ok result →
            ∀ last, Onward after last → good result last) :
    Sure pool author named (Raising.perform op outcome) state good := by
  intro later passed choice reply after _ answered
  obtain ⟨onward, agree, touches, kept⟩ :=
    stepped later passed.1 (passed.2 coherent) choice reply after answered
  refine ⟨⟨⟨onward, fun _ => agree⟩, touches⟩, ?_⟩
  intro last further result same
  exact ⟨(passed.1.trans onward).trans further.1, further.2 agree,
    kept result same last further.1⟩

theorem sure_look (coherent : Coherent pool state)
    (looked : ∀ later, Onward state later → Coherent pool later → ∀ choice reply after,
      answer later op choice = some (reply, after) → after = later ∧
        ∀ result, outcome reply = .ok result → ∀ last, Onward later last → good result last) :
    Sure pool author named (Raising.perform op outcome) state good := by
  refine sure_perform coherent ?_
  intro later onward agree choice reply after answered
  obtain ⟨rfl, kept⟩ := looked later onward agree choice reply after answered
  exact ⟨.refl _, agree, .inl ⟨rfl, rfl⟩, kept⟩

theorem sure_remember {outcome : interface.Reply op → Except Failure Unit}
    (coherent : Coherent pool state)
    (kept : ∀ later, Onward state later → Coherent pool later → ∀ choice reply after,
      answer later op choice = some (reply, after) → ∃ lease memory,
        after = later.remember lease memory ∧ later.Owns lease memory.key memory.etag) :
    Sure pool author named (Raising.perform op outcome) state fun _ _ => True := by
  refine sure_perform coherent ?_
  intro later onward agree choice reply after answered
  obtain ⟨lease, memory, rfl, owned⟩ := kept later onward agree choice reply after answered
  exact ⟨.remember later lease memory, agree.remember owned, .inl ⟨rfl, rfl⟩,
    fun _ _ _ _ => trivial⟩

theorem sure_now (coherent : Coherent pool state) :
    Sure pool author named now state fun instant later => instant ≤ later.clock := by
  refine sure_look coherent ?_
  intro later _ _ choice reply after answered
  cases choice <;> cases answered
  refine ⟨rfl, fun instant same last further => ?_⟩
  cases same
  exact further.clock

/-- The object was in its slot at some time. -/
def Seen (key : String) (data : Data) (etag : ETag) (state : State) : Prop :=
  ∃ earlier : State, Onward earlier state ∧ earlier.store.Fresh ∧
    earlier.object key = some (data, etag)

theorem sure_getBytes (coherent : Coherent pool state) (key : String) :
    Sure pool author named (getBytes key) state fun found later =>
      ∀ data etag, found = some (data, etag) → Seen key data etag later := by
  refine sure_look coherent ?_
  intro later _ agree choice reply after answered
  cases choice <;> cases answered
  · refine ⟨rfl, fun found same last further data etag here => ?_⟩
    cases same
    exact ⟨later, further, agree.fresh, here⟩
  · exact ⟨rfl, fun found same => by cases same⟩

variable {key : String} {condition : Condition}

theorem sure_tryPut (coherent : Coherent pool state) (right : data.hasState named = true)
    (permitted : ∀ later, Onward state later → Coherent pool later →
      later.store.admits key condition = true → Permitted pool later key data author) :
    Sure pool author named (Raising.attempt (putCas key data condition author)) state
      fun outcome later => ∀ etag, outcome = .ok etag →
        ⟨etag, key, author.getD etag, data⟩ ∈ later.writes := by
  suffices performed : Sure pool author named
      (Raising.perform (Op.put key data condition author) .ok) state
        fun outcome later => ∀ etag, outcome = .ok etag →
          ⟨etag, key, author.getD etag, data⟩ ∈ later.writes from performed
  refine sure_perform coherent ?_
  intro later onward agree choice reply after answered
  cases choice with
  | works =>
      obtain ⟨admitted, moved⟩ | ⟨_, stays⟩ := ite_eq_iff.mp answered
      · cases moved
        have allowed := permitted later onward agree admitted
        refine ⟨.put later key data author, agree.put allowed,
          .inr ⟨key, data, right, allowed, rfl⟩, ?_⟩
        intro outcome same last further etag named
        cases same
        cases named
        exact further.grown _ List.mem_cons_self
      · cases stays
        refine ⟨.refl _, agree, .inl ⟨rfl, rfl⟩, fun outcome same last _ etag named => ?_⟩
        cases same
        cases named
  | fails =>
      cases answered
      refine ⟨.refl _, agree, .inl ⟨rfl, rfl⟩, fun outcome same last _ etag named => ?_⟩
      cases same
      cases named
  | tick clock => cases answered

variable {lease : LeaseId} {tag : ETag}

theorem owns_of_memory (coherent : Coherent pool state)
    (known : state.Owns lease key tag) {memory : LeaseMemory}
    (found : state.memory lease = some memory) :
    memory.key = key ∧ state.Owns lease key memory.etag := by
  obtain ⟨data, looks, member⟩ := coherent.remembered lease memory found
  obtain ⟨_, _, also⟩ := known
  have same : memory.key = key := coherent.shared _ member _ also rfl
  exact ⟨same, data, looks, same ▸ member⟩

theorem sure_readETag (coherent : Coherent pool state) (known : state.Owns lease key tag) :
    Sure pool author named (readETag lease) state fun etag later => later.Owns lease key etag := by
  refine sure_look coherent ?_
  intro later onward agree choice reply after answered
  cases choice with
  | works =>
      obtain ⟨memory, found, same⟩ := Option.map_eq_some_iff.mp answered
      cases same
      refine ⟨rfl, fun etag same last further => ?_⟩
      cases same
      exact further.owns (owns_of_memory agree (onward.owns known) found).2
  | fails => cases answered
  | tick clock => cases answered

variable {etag : ETag}

theorem sure_setETag (coherent : Coherent pool state) (known : state.Owns lease key etag) :
    Sure pool author named (setETag lease etag) state fun _ _ => True := by
  refine sure_remember coherent ?_
  intro later onward agree choice reply after answered
  cases choice with
  | works =>
      obtain ⟨memory, found, same⟩ := Option.map_eq_some_iff.mp answered
      cases same
      have at_ := (owns_of_memory agree (onward.owns known) found).1
      exact ⟨lease, _, rfl, at_ ▸ onward.owns known⟩
  | fails => cases answered
  | tick clock => cases answered

theorem sure_construct (coherent : Coherent pool state) (known : state.Owns etag key etag) :
    Sure pool author named (construct key etag) state fun _ _ => True := by
  refine sure_remember coherent ?_
  intro later onward agree choice reply after answered
  cases choice <;> cases answered
  exact ⟨etag, _, rfl, onward.owns known⟩

theorem sure_readFlag (coherent : Coherent pool state) (lease : LeaseId) (flag : Flag) :
    Sure pool author named (readFlag lease flag) state fun _ _ => True := by
  refine sure_look coherent ?_
  intro later _ _ choice reply after answered
  cases choice with
  | works =>
      obtain ⟨memory, _, same⟩ := Option.map_eq_some_iff.mp answered
      cases same
      exact ⟨rfl, fun _ _ _ _ => trivial⟩
  | fails => cases answered
  | tick clock => cases answered

theorem sure_setFlag (coherent : Coherent pool state) (lease : LeaseId) (flag : Flag) :
    Sure pool author named (setFlag lease flag) state fun _ _ => True := by
  refine sure_remember coherent ?_
  intro later _ agree choice reply after answered
  cases choice with
  | works =>
      obtain ⟨memory, found, same⟩ := Option.map_eq_some_iff.mp answered
      cases same
      refine ⟨lease, _, rfl, ?_⟩
      rw [LeaseMemory.raise_key, LeaseMemory.raise_etag]
      exact agree.remembered lease memory found
  | fails => cases answered
  | tick clock => cases answered

theorem sure_join (coherent : Coherent pool state) (lease : LeaseId) :
    Sure pool author named (join lease) state fun _ _ => True := by
  refine sure_look coherent ?_
  intro later _ _ choice reply after answered
  cases choice <;> cases answered
  exact ⟨rfl, fun _ _ _ _ => trivial⟩

/-! ### The calls -/

theorem sure_encodePayload (coherent : Coherent pool state) (owner given : String) (expires : Int) :
    Sure pool author named (encodePayload pool owner given expires) state fun data _ =>
      data.hasState given = true ∧ ∀ clock, expires ≤ clock → expired data clock = true := by
  unfold encodePayload
  refine (sure_now coherent).bind ?_
  intro now later _ agree _
  refine sure_pure agree ?_
  intro last _
  exact ⟨beq_self_eq_true given, fun clock passed => by simp [expired, passed]⟩

theorem sure_payload (coherent : Coherent pool state) (owner : String) :
    Sure pool author named (payload pool owner) state fun data _ =>
      data.hasState acquired = true := by
  unfold payload
  refine (sure_now coherent).bind ?_
  intro now later _ agree _
  exact (sure_encodePayload agree owner acquired _).weaken fun _ _ _ encoded => encoded.1

theorem sure_tryClaim (coherent : Coherent pool state) (owner : String)
    (inside : key ∈ pool.slotKeys)
    (vacant : ∀ later, Onward state later → later.store.admits key condition = true →
      ∀ found etag, later.object key = some (found, etag) → expired found later.clock = true) :
    Sure pool none acquired (tryClaim pool owner key condition) state fun claimed later =>
      ∀ etag, claimed = some etag → later.Owns etag key etag := by
  unfold tryClaim
  refine (sure_payload coherent owner).bind ?_
  intro data later onward agree looks
  refine (sure_tryPut agree looks ?_).bind ?_
  · intro last further _ admitted
    exact ⟨inside, looks, vacant last (onward.trans further) admitted⟩
  · intro outcome last _ settled written
    cases outcome with
    | ok etag =>
        refine sure_pure settled ?_
        intro end_ further claimed same
        cases same
        exact ⟨data, looks, further.grown _ (written etag rfl)⟩
    | error failure =>
        cases failure with
        | conflict => exact sure_pure settled fun _ _ _ same => by cases same
        | failed => exact sure_throw

theorem sure_finish (coherent : Coherent pool state) (owned : state.Owns etag key etag) :
    Sure pool none acquired (finish key etag) state fun _ _ => True := by
  unfold finish
  refine (sure_construct coherent owned).bind ?_
  intro _ later _ agree _
  refine (sure_setFlag agree etag .renewing).bind ?_
  intro _ last _ settled _
  exact sure_pure settled fun _ _ => trivial

theorem sure_sweep (owner : String) {now : Int} {indices : List Nat}
    (inside : ∀ index ∈ indices, index < pool.slots)
    (coherent : Coherent pool state) (past : now ≤ state.clock) :
    Sure pool none acquired (sweep pool owner now indices) state fun _ _ => True := by
  induction indices generalizing state with
  | nil => exact sure_pure coherent fun _ _ => trivial
  | cons index indices induction =>
      obtain ⟨within, others⟩ := List.forall_mem_cons.mp inside
      have slotted : pool.slotKey index ∈ pool.slotKeys :=
        List.mem_map_of_mem (List.mem_range.mpr within)
      have went {later : State} (onward : Onward state later) (agree : Coherent pool later) :
          Sure pool none acquired (sweep pool owner now indices) later fun _ _ => True :=
        induction others agree (past.trans onward.clock)
      have finished (claimed : Option LeaseId) (later : State) (onward : Onward state later)
          (agree : Coherent pool later)
          (won : ∀ etag, claimed = some etag → later.Owns etag (pool.slotKey index) etag) :
          Sure pool none acquired
            (finishOr (pool.slotKey index) (sweep pool owner now indices) claimed) later
              fun _ _ => True := by
        cases claimed with
        | none => exact went onward agree
        | some etag => exact sure_finish agree (won etag rfl)
      refine (sure_getBytes coherent _).bind ?_
      intro found later onward agree seen
      cases found with
      | none =>
          refine (sure_tryClaim agree owner slotted ?_).bind ?_
          · intro last _ admitted found etag present
            cases (Option.isNone_iff_eq_none.mp admitted).symm.trans present
          · intro claimed last further settled won
            exact finished claimed last (onward.trans further) settled won
      | some object =>
          obtain ⟨data, currentETag⟩ := object
          dsimp only
          split
          · next spent =>
            refine (sure_tryClaim agree owner slotted ?_).bind ?_
            · intro last further admitted found etag present
              -- The object that is replaced is the one that was judged, by an older clock.
              obtain ⟨earlier, since, fresh, here⟩ := seen data currentETag rfl
              cases ((since.trans further).admits_ifMatch fresh here admitted).symm.trans present
              exact expired_later ((past.trans onward.clock).trans further.clock) spent
            · intro claimed last further settled won
              exact finished claimed last (onward.trans further) settled won
          · exact went onward agree

theorem sure_tryOnePass (coherent : Coherent pool state) (owner : String) :
    Sure pool none acquired (tryOnePass pool owner) state fun _ _ => True := by
  unfold tryOnePass
  refine (sure_now coherent).bind ?_
  intro now later _ agree past
  refine sure_sweep owner ?_ agree past
  refine List.forall_mem_map.mpr fun turn member => ?_
  exact Nat.mod_lt _ (Nat.zero_lt_of_lt (List.mem_range.mp member))

theorem own_object (coherent : Coherent pool state) (owned : state.Owns lease key etag)
    (admitted : state.store.admits key (.ifMatch etag) = true) :
    ∃ found etag, state.object key = some (found, etag) ∧ found.hasState acquired = true ∧
      ⟨etag, key, lease, found⟩ ∈ state.writes := by
  obtain ⟨data, looks, member⟩ := owned
  obtain ⟨⟨stored, tag⟩, present, same⟩ := (Option.any_eq_true ..).mp admitted
  cases beq_iff_eq.mp same
  obtain ⟨_, _, here, _, equal⟩ := coherent.placed _ member
  cases present.symm.trans here
  have same : data = stored := equal rfl
  subst same
  exact ⟨data, _, present, looks, member⟩

theorem sure_renewWhileHeld (owner : String) (rounds : Nat) (coherent : Coherent pool state)
    (known : state.Owns lease key tag) :
    Sure pool (some lease) acquired (renewWhileHeld pool owner lease key rounds) state
      fun _ _ => True := by
  induction rounds generalizing state with
  | zero => exact sure_pure coherent fun _ _ => trivial
  | succ rounds induction =>
      refine (sure_readFlag coherent lease .stop).bind ?_
      intro stopped first onFirst atFirst _
      split
      · exact sure_pure atFirst fun _ _ => trivial
      · refine (sure_payload atFirst owner).bind ?_
        intro data second onSecond atSecond looks
        have still := (onFirst.trans onSecond).owns known
        refine (sure_readETag atSecond still).bind ?_
        intro etag third onThird atThird owned
        refine (sure_tryPut atThird looks ?_).bind ?_
        · intro later further agree admitted
          exact ⟨.inl looks, own_object agree (further.owns owned) admitted⟩
        · intro outcome fourth onFourth atFourth written
          have also := (onThird.trans onFourth).owns still
          cases outcome with
          | ok renewed =>
              refine (sure_setETag atFourth ⟨data, looks, written renewed rfl⟩).bind ?_
              intro _ last onLast atLast _
              exact induction atLast (onLast.owns also)
          | error failure =>
              cases failure with
              | conflict => exact sure_setFlag atFourth lease .lost
              | failed => exact induction atFourth also

theorem sure_releasedPayload (coherent : Coherent pool state) (owner : String) :
    Sure pool author named (releasedPayload pool owner) state fun data later =>
      data.hasState released = true ∧ expired data later.clock = true := by
  unfold releasedPayload
  refine (sure_now coherent).bind ?_
  intro now later _ agree past
  refine (sure_encodePayload agree owner released now).weaken ?_
  intro data last onward encoded
  exact ⟨encoded.1, encoded.2 last.clock (past.trans onward.clock)⟩

theorem sure_release (coherent : Coherent pool state) (owner : String)
    (known : state.Owns lease key tag) :
    Sure pool (some lease) released (release pool owner lease key) state fun _ _ => True := by
  unfold release
  refine (sure_setFlag coherent lease .stop).bind ?_
  intro _ first onFirst atFirst _
  refine (sure_join atFirst lease).bind ?_
  intro _ second onSecond atSecond _
  refine (sure_readFlag atSecond lease .lost).bind ?_
  intro lost third onThird atThird _
  split
  · exact sure_pure atThird fun _ _ => trivial
  · refine (sure_releasedPayload atThird owner).bind ?_
    intro data fourth onFourth atFourth tombstone
    have still := ((onFirst.trans onSecond).trans (onThird.trans onFourth)).owns known
    refine (sure_readETag atFourth still).bind ?_
    intro etag fifth onFifth atFifth owned
    refine (sure_tryPut atFifth tombstone.1 ?_).bind ?_
    · intro later further agree admitted
      have spent := expired_later (onFifth.trans further).clock tombstone.2
      exact ⟨.inr ⟨tombstone.1, spent⟩, own_object agree (further.owns owned) admitted⟩
    · intro _ last _ settled _
      exact sure_pure settled fun _ _ => trivial

/-! ## Runs -/

def conduct (pool : Pool) : Tasks.Conduct (holders pool) where
  bargain call := bargain pool call.author call.writes
  promise _ _ _ _ := True

theorem started (coherent : Coherent pool state) {call : Call}
    (permitted : mayStart state call = true) :
    Sure pool call.author call.writes (call.session pool) state fun _ _ => True := by
  cases call with
  | pass owner => exact sure_tryOnePass coherent owner
  | renew owner lease key rounds =>
      obtain ⟨memory, found, held⟩ := (Option.any_eq_true ..).mp permitted
      have named : memory.key = key := beq_iff_eq.mp (Bool.and_eq_true_iff.mp held).1
      have known := coherent.remembered lease memory found
      rw [named] at known
      refine (sure_renewWhileHeld owner rounds coherent known).bind ?_
      intro _ later _ agree _
      exact sure_pure agree fun _ _ => trivial
  | release owner lease key =>
      obtain ⟨memory, found, held⟩ := (Option.any_eq_true ..).mp permitted
      have named : memory.key = key := beq_iff_eq.mp held
      have known := coherent.remembered lease memory found
      rw [named] at known
      refine (sure_release coherent owner known).bind ?_
      intro _ later _ agree _
      exact sure_pure agree fun _ _ => trivial

/-- The events that happen while the slots, the memory and the writes agree. -/
def Agreed (pool : Pool) (config : Tasks.Config (holders pool)) (_ : Tasks.Event (holders pool)) :
    Prop :=
  Coherent pool config.state

variable {choice : Choice}

theorem drift_passes {after : State}
    (drifted : drift state choice = some after) : Passes pool state after := by
  cases choice with
  | tick clock =>
      obtain ⟨ahead, same⟩ := Option.ite_none_right_eq_some.mp drifted
      cases same
      exact ⟨.tick state ahead, fun coherent => coherent.tick ahead⟩
  | works => cases drifted
  | fails => cases drifted

theorem conduct_sound {initial : Tasks.Config (holders pool)} (idle : initial.workers = []) :
    (conduct pool).Sound (Agreed pool) initial where
  base := idle
  drifted _ _ _ _ _ drifted _ _ := .inl (drift_passes drifted)
  started _ _ _ coherent permitted :=
    Task.Safe.weaken (started coherent permitted) fun _ _ _ => trivial
  assumed _ _ _ _ _ _ _ _ _ := trivial
  apart _ _ _ _ _ _ _ _ _ _ _ _ _ _ _ _ _ guaranteed := .inl guaranteed.1

/-- Nobody holds anything yet; the slots may carry what others have left. -/
structure Start (pool : Pool) (initial : Tasks.Config (holders pool)) : Prop where
  idle : initial.workers = []
  fresh : initial.state.store.Fresh
  unwritten : initial.state.writes = []
  forgotten : ∀ lease, initial.state.memory lease = none

variable {initial config : Tasks.Config (holders pool)}

theorem Start.coherent (start : Start pool initial) : Coherent pool initial.state where
  fresh := start.fresh
  ordered := by simp [start.unwritten]
  numbered := by simp [start.unwritten]
  slotted := by simp [start.unwritten]
  shared := by simp [start.unwritten]
  placed := by simp [start.unwritten]
  final := by simp [start.unwritten]
  current := by simp [start.unwritten]
  remembered lease memory known := by
    rw [start.forgotten] at known
    cases known

theorem agreed_of_run (start : Start pool initial) (run : Tasks.Reachable initial config) :
    Tasks.Run (Agreed pool) initial config ∧ Coherent pool config.state := by
  induction run with
  | refl => exact ⟨.refl, start.coherent⟩
  | step run event permitted stepped induction =>
      obtain ⟨agreed, coherent⟩ := induction
      refine ⟨.step agreed event coherent stepped, ?_⟩
      cases Tasks.Config.step_moves stepped with
      | drift choice state drifted => exact (drift_passes drifted).2 coherent
      | start call mayStart => exact coherent
      | run index choice call op next present reply state answered =>
          have sound := conduct_sound start.idle
          have performed := (sound.kept agreed).performs sound agreed coherent present answered
          exact performed.1.1.2 coherent
      | kill index => exact coherent

theorem worker_step (start : Start pool initial) (run : Tasks.Reachable initial config)
    {after : Tasks.Config (holders pool)} {index : Nat}
    {worker : Tasks.Worker (holders pool)} (present : config.workers[index]? = some worker)
    (stepped : config.step (.run index choice) = some after) :
    Onward config.state after.state ∧
      Touches pool worker.call.author worker.call.writes config.state after.state := by
  obtain ⟨agreed, coherent⟩ := agreed_of_run start run
  have sound := conduct_sound start.idle
  cases Tasks.Config.step_moves stepped with
  | run index choice call op next here reply state answered =>
      cases present.symm.trans here
      have performed := (sound.kept agreed).performs sound agreed coherent here answered
      exact ⟨performed.1.1.1, performed.1.2⟩

theorem onward_of_run (start : Start pool initial) (run : Tasks.Reachable initial config)
    {later : Tasks.Config (holders pool)} (more : Tasks.Reachable config later) :
    Onward config.state later.state := by
  induction more with
  | refl => exact .refl _
  | step more event permitted stepped induction =>
      refine induction.trans ?_
      cases Tasks.Config.step_moves stepped with
      | drift choice state drifted =>
          have passed : Passes pool _ state := drift_passes drifted
          exact passed.1
      | start call mayStart => exact .refl _
      | run index choice call op next present reply state answered =>
          exact (worker_step start (run.trans more) present stepped).1
      | kill index => exact .refl _

def State.Live (state : State) (lease : LeaseId) : Prop :=
  ∃ write, state.lastWrite lease = some write ∧ expired write.data state.clock = false

/-- The slot carries a payload of the lease that is acquired or has not expired. -/
def State.LooksHeldBy (state : State) (key : String) (lease : LeaseId) : Prop :=
  ∃ data etag, state.object key = some (data, etag) ∧ ⟨etag, key, lease, data⟩ ∈ state.writes ∧
    (data.hasState acquired = true ∨ expired data state.clock = false)

def State.slotOf (state : State) (lease : LeaseId) : Option String :=
  (state.lastWrite lease).map Write.key

namespace Coherent

variable {state later : State}

theorem live_at_most_slots (coherent : Coherent pool state) {leases : List LeaseId}
    (distinct : leases.Nodup) (live : ∀ lease ∈ leases, state.Live lease) :
    leases.length ≤ pool.slots := by
  have apart : (leases.map state.slotOf).Nodup := by
    refine distinct.map_on ?_
    intro lease member other also same
    obtain ⟨write, last, current⟩ := live lease member
    obtain ⟨sibling, final, present⟩ := live other also
    obtain ⟨rfl, _, written, here⟩ := coherent.holds_slot last current
    obtain ⟨rfl, _, listed, there⟩ := coherent.holds_slot final present
    have together : write.key = sibling.key := by simpa [State.slotOf, last, final] using same
    rw [← together] at there
    refine coherent.carries_unique ⟨_, _, here, written⟩ ⟨_, _, there, ?_⟩
    rw [together]
    exact listed
  have within : leases.map state.slotOf ⊆ pool.slotKeys.map some := by
    intro slot member
    obtain ⟨lease, held, rfl⟩ := List.mem_map.mp member
    obtain ⟨write, last, current⟩ := live lease held
    refine List.mem_map.mpr ⟨write.key, (coherent.holds_slot last current).2.1, ?_⟩
    simp [State.slotOf, last]
  have fewer := (List.subperm_of_subset apart within).length_le
  simpa [Pool.slotKeys] using fewer

/-- A lease that has released its slot never writes again, and its tombstone stays one. -/
theorem released_for_good (coherent : Coherent pool state) (agree : Coherent pool later)
    (onward : Onward state later) {write : Write} (member : write ∈ state.writes)
    (spent : write.data.hasState released = true) :
    (∀ other ∈ later.writes, other.lease = write.lease → other ∈ state.writes) ∧
      ∀ key, ¬ later.LooksHeldBy key write.lease := by
  have still := onward.grown write member
  have last := agree.final write still spent
  constructor
  · intro other also same
    refine onward.news other also ?_
    exact Nat.lt_of_le_of_lt (last.2 other also same) (coherent.numbered write member).2
  · rintro key ⟨data, etag, present, listed, held⟩
    have at_ : key = write.key := agree.shared _ listed write still rfl
    obtain ⟨stored, tag, here, above, _⟩ := agree.placed write still
    rw [← at_] at here
    cases present.symm.trans here
    have newest : etag ≤ write.etag := last.2 _ listed rfl
    have same : data = write.data :=
      congrArg Write.data (agree.same_write listed still (Nat.le_antisymm newest above))
    rw [same] at held
    rcases held with looks | live
    · rw [acquired_not_released looks] at spent
      cases spent
    · rw [last.1] at live
      cases live

end Coherent

/-- In every run, a slot carries the payload of one lease; what a lease last wrote is in its
slot until it expires, so that at most as many leases as there are slots are live; a renewal
or a release replaces only what its own lease has written; and once the write of a release
has succeeded, its lease writes no more and its slot never looks held by it. -/
theorem slots_never_shared (start : Start pool initial) (run : Tasks.Reachable initial config) :
    (∀ key lease other, config.state.Carries key lease → config.state.Carries key other →
      lease = other) ∧
    (∀ lease write, config.state.lastWrite lease = some write →
      expired write.data config.state.clock = false →
        config.state.object write.key = some (write.data, write.etag)) ∧
    (∀ leases : List LeaseId, leases.Nodup → (∀ lease ∈ leases, config.state.Live lease) →
      leases.length ≤ pool.slots) ∧
    (∀ index choice worker lease after, config.workers[index]? = some worker →
      worker.call.author = some lease → config.step (.run index choice) = some after →
        (after.state.store = config.state.store ∧ after.state.writes = config.state.writes) ∨
          ∃ key data, config.state.Carries key lease ∧
            after.state = config.state.put key data (some lease)) ∧
    ∀ index choice owner lease key rest after,
      config.workers[index]? = some ⟨.release owner lease key, rest⟩ →
      config.step (.run index choice) = some after →
        after.state.writes = config.state.writes ∨ ∀ later, Tasks.Reachable after later →
          (∀ write ∈ later.state.writes, write.lease = lease → write ∈ after.state.writes) ∧
            ∀ slot, ¬ later.state.LooksHeldBy slot lease := by
  obtain ⟨_, coherent⟩ := agreed_of_run start run
  refine ⟨fun key lease other => coherent.carries_unique, ?_,
    fun leases => coherent.live_at_most_slots, ?_, ?_⟩
  · intro lease write last live
    exact (coherent.holds_slot last live).2.2.2
  · intro index choice worker lease after present authored stepped
    rcases (worker_step start run present stepped).2 with same | ⟨key, data, _, allowed, moved⟩
    · exact .inl same
    · rw [authored] at allowed moved
      obtain ⟨_, found, etag, here, _, owned⟩ := allowed
      exact .inr ⟨key, data, ⟨found, etag, here, owned⟩, moved⟩
  · intro index choice owner lease key rest after present stepped
    rcases (worker_step start run present stepped).2 with same | ⟨slot, data, spent, _, moved⟩
    · exact .inl same.2
    · refine .inr fun later more => ?_
      have reached : Tasks.Reachable initial after := .step run _ trivial stepped
      have written : ⟨config.state.store.nextETag, slot, lease, data⟩ ∈ after.state.writes := by
        rw [moved]
        exact List.mem_cons_self
      exact (agreed_of_run start reached).2.released_for_good
        (agreed_of_run start (reached.trans more)).2 (onward_of_run start reached more) written spent

end

/-! ## One slot -/

def single : Pool where
  domain := "granicus.com"
  path := "provider-leases/granicus.com/"
  slots := 1
  ttl := 3600000000

def vacant : Tasks.Config (holders single) := ⟨{ store := .empty, clock := 0 }, []⟩

theorem vacant_start : Start single vacant :=
  ⟨rfl, Store.empty_fresh, rfl, fun _ => rfl⟩

def tenancy : List (Tasks.Event (holders single)) :=
  [.start (.pass "worker")] ++ List.replicate 7 (.run 0 .works) ++
    [.start (.release "worker" 0 (single.slotKey 0))] ++ List.replicate 7 (.run 1 .works)

theorem tenancy_runs : (vacant.execute (fun _ _ => true) tenancy).isSome = true := by
  decide +kernel

def vacated : Tasks.Config (holders single) :=
  (vacant.execute (fun _ _ => true) tenancy).get tenancy_runs

theorem vacated_once : vacated.state.writes.length = 2 ∧
    ∀ leases : List LeaseId, leases.Nodup → (∀ lease ∈ leases, vacated.state.Live lease) →
      leases.length ≤ 1 :=
  ⟨by decide +kernel,
    (slots_never_shared vacant_start (.of_execute (Option.some_get tenancy_runs).symm)).2.2.1⟩

end ProviderLeases

end CityPods.Ops
