import Mathlib.Data.String.Basic
import Mathlib.Data.Sum.Order
import CityPods.Foundation.Dict
import CityPods.Foundation.Threads

/-! # Waiting for provider slots

Threads of any number of processes enter the host slots of their process, inside them the
distributed slots, run a body and leave. Both are taken one domain at a time in the order of
the domains, and given back in the reverse order on every path.
-/

namespace CityPods.Ops

open Foundation Threads

namespace ProviderSlots

/-! ## Which domains -/

def governs (key host : String) : Bool :=
  host == key || ("." ++ key).toList.isSuffixOf host.toList

/-- The longest configured domain that governs the host. -/
def keyFor (keys : List String) (host : String) : Option String :=
  keys.foldl (fun best key =>
    if governs key host && best.all fun found => found.length < key.length then some key
    else best) none

/-- Nothing, where `urlsplit` raises; a url without a host has an empty one. -/
def keysFor (hostname : String → Option String) (keys urls : List String) :
    Option (List String) :=
  (urls.mapM hostname).map fun hosts => Dict.sortedSet (hosts.filterMap (keyFor keys))

/-! ## Permits and leases -/

/-- What each process limits its hosts to, and the slots of the distributed domains. -/
structure Rates where
  limits : Nat → Dict String Nat
  rules : Dict String Nat

namespace Rates

def cap (rates : Rates) (process : Nat) (key : String) : Nat :=
  ((rates.limits process).get? key).getD 0

def slots (rates : Rates) (domain : String) : Nat := (rates.rules.get? domain).getD 0

end Rates

structure Lease where
  domain : String
  id : Nat
  deriving DecidableEq

/-- The semaphores that have been made, and the leases in the slots of each domain. -/
structure Shared where
  sems : Nat × String → Option Nat := fun _ => none
  slots : String → List Nat := fun _ => []
  nextLease : Nat := 0

namespace Shared

/-- A semaphore is made with its cap when it is first asked for. -/
def value (rates : Rates) (shared : Shared) (process : Nat) (key : String) : Nat :=
  (shared.sems (process, key)).getD (rates.cap process key)

def setValue (shared : Shared) (process : Nat) (key : String) (value : Nat) : Shared :=
  { shared with sems := Function.update shared.sems (process, key) (some value) }

def claim (shared : Shared) (domain : String) : Shared :=
  { shared with
    slots := Function.update shared.slots domain (shared.nextLease :: shared.slots domain)
    nextLease := shared.nextLease + 1 }

/-- The write of a release: a slot that another lease has taken over is left alone. -/
def free (shared : Shared) (lease : Lease) : Shared :=
  { shared with
    slots := Function.update shared.slots lease.domain
      ((shared.slots lease.domain).filter fun id => id ≠ lease.id) }

end Shared

/-! ## Threads -/

/-- The domains and leases that are held are listed newest first. -/
inductive Phase
  | idle
  | takingHosts (stoppable : Bool) (leaseUrls : List String) (held todo : List String)
  | takingLeases (stoppable : Bool) (hosts : List String) (leases : List Lease)
      (todo : List String)
  | body (hosts : List String) (leases : List Lease)
  | leavingLeases (hosts : List String) (leases : List Lease)
  | leavingHosts (hosts : List String)

/-- With a record of the leases that were acquired and of the calls of `release`. -/
structure Thread where
  process : Nat
  phase : Phase
  acquired : List Lease := []
  released : List Lease := []

def Thread.goTo (thread : Thread) (phase : Phase) : Thread := { thread with phase := phase }

inductive Action
  | enter (stoppable : Bool) (hostUrls leaseUrls : List String)
  /-- Whatever comes next, where that is possible. -/
  | advance
  /-- A wait or a pass that ends with nothing; `stop` has not fired. -/
  | poll
  | stop
  /-- A pass raises. -/
  | fail
  /-- The slot of a lease that is held expires and is taken from it. -/
  | lapse (lease : Lease)

def Phase.leases : Phase → List Lease
  | .takingLeases _ _ leases _ => leases
  | .body _ leases => leases
  | .leavingLeases _ leases => leases
  | _ => []

def Phase.hosts : Phase → List String
  | .idle => []
  | .takingHosts _ _ held _ => held
  | .takingLeases _ hosts _ _ => hosts
  | .body hosts _ => hosts
  | .leavingLeases hosts _ => hosts
  | .leavingHosts hosts => hosts

section

variable (rates : Rates) (hostname : String → Option String)

/-- The step of a thread that neither enters, polls nor gives up. -/
def advance (shared : Shared) (thread : Thread) : Option (Shared × Thread) :=
  match thread.phase with
  | .idle => none
  | .takingHosts stoppable leaseUrls held (key :: todo) =>
      if 0 < shared.value rates thread.process key then
        some (shared.setValue thread.process key (shared.value rates thread.process key - 1),
          thread.goTo (.takingHosts stoppable leaseUrls (key :: held) todo))
      else none
  | .takingHosts stoppable leaseUrls held [] =>
      -- The url set of the leases is read inside the host slots.
      some (shared, thread.goTo ((keysFor hostname rates.rules.keys leaseUrls).elim
        (.leavingHosts held) fun domains => .takingLeases stoppable held [] domains))
  | .takingLeases stoppable hosts leases (domain :: todo) =>
      if (shared.slots domain).length < rates.slots domain then
        some (shared.claim domain,
          { thread with
            phase := .takingLeases stoppable hosts (⟨domain, shared.nextLease⟩ :: leases) todo
            acquired := ⟨domain, shared.nextLease⟩ :: thread.acquired })
      else none
  | .takingLeases _ hosts leases [] => some (shared, thread.goTo (.body hosts leases))
  | .body hosts leases => some (shared, thread.goTo (.leavingLeases hosts leases))
  | .leavingLeases hosts (lease :: rest) =>
      some (shared.free lease,
        { thread with
          phase := .leavingLeases hosts rest
          released := lease :: thread.released })
  | .leavingLeases hosts [] => some (shared, thread.goTo (.leavingHosts hosts))
  | .leavingHosts (key :: rest) =>
      -- A bounded semaphore refuses to be released above its cap.
      if shared.value rates thread.process key < rates.cap thread.process key then
        some (shared.setValue thread.process key (shared.value rates thread.process key + 1),
          thread.goTo (.leavingHosts rest))
      else none
  | .leavingHosts [] => some (shared, thread.goTo .idle)

def step (shared : Shared) (thread : Thread) (action : Action) : Option (Shared × Thread) :=
  match action, thread.phase with
  | .advance, _ => advance rates hostname shared thread
  | .enter stoppable hostUrls leaseUrls, .idle =>
      some (shared, thread.goTo ((keysFor hostname (rates.limits thread.process).keys hostUrls).elim
        .idle fun keys => .takingHosts stoppable leaseUrls [] keys))
  | .poll, .takingHosts true _ _ (_ :: _) => some (shared, thread)
  | .poll, .takingLeases _ _ _ (_ :: _) => some (shared, thread)
  | .stop, .takingHosts true _ held (_ :: _) => some (shared, thread.goTo (.leavingHosts held))
  | .stop, .takingLeases true hosts leases (_ :: _) =>
      some (shared, thread.goTo (.leavingLeases hosts leases))
  | .fail, .takingLeases _ hosts leases (_ :: _) =>
      some (shared, thread.goTo (.leavingLeases hosts leases))
  | .lapse lease, phase =>
      if lease ∈ phase.leases then some (shared.free lease, thread) else none
  | _, _ => none

def providerSlots : ThreadSystem Shared Thread Action where
  step := step rates hostname

end

def idleThreads (processes : List Nat) : Config Shared Thread :=
  ⟨{}, processes.map fun process => { process := process, phase := .idle }⟩

/-! ## One step -/

section

variable {rates : Rates} {hostname : String → Option String}

inductive Steps (rates : Rates) (hostname : String → Option String) (shared : Shared) :
    Thread → Shared → Thread → Prop
  | stay (thread : Thread) : Steps rates hostname shared thread shared thread
  | enter {process acquired released stoppable leaseUrls hostUrls keys}
      (read : keysFor hostname (rates.limits process).keys hostUrls = some keys) :
      Steps rates hostname shared ⟨process, .idle, acquired, released⟩ shared
        ⟨process, .takingHosts stoppable leaseUrls [] keys, acquired, released⟩
  | acquire {process acquired released stoppable leaseUrls held key todo}
      (free : 0 < shared.value rates process key) :
      Steps rates hostname shared
        ⟨process, .takingHosts stoppable leaseUrls held (key :: todo), acquired, released⟩
        (shared.setValue process key (shared.value rates process key - 1))
        ⟨process, .takingHosts stoppable leaseUrls (key :: held) todo, acquired, released⟩
  | abandonHosts {process acquired released stoppable leaseUrls held todo} :
      Steps rates hostname shared
        ⟨process, .takingHosts stoppable leaseUrls held todo, acquired, released⟩ shared
        ⟨process, .leavingHosts held, acquired, released⟩
  | goOn {process acquired released stoppable leaseUrls held domains}
      (read : keysFor hostname rates.rules.keys leaseUrls = some domains) :
      Steps rates hostname shared
        ⟨process, .takingHosts stoppable leaseUrls held [], acquired, released⟩ shared
        ⟨process, .takingLeases stoppable held [] domains, acquired, released⟩
  | claim {process acquired released stoppable hosts leases domain todo}
      (room : (shared.slots domain).length < rates.slots domain) :
      Steps rates hostname shared
        ⟨process, .takingLeases stoppable hosts leases (domain :: todo), acquired, released⟩
        (shared.claim domain)
        ⟨process, .takingLeases stoppable hosts (⟨domain, shared.nextLease⟩ :: leases) todo,
          ⟨domain, shared.nextLease⟩ :: acquired, released⟩
  | abandonLeases {process acquired released stoppable hosts leases todo} :
      Steps rates hostname shared
        ⟨process, .takingLeases stoppable hosts leases todo, acquired, released⟩ shared
        ⟨process, .leavingLeases hosts leases, acquired, released⟩
  | run {process acquired released stoppable hosts leases} :
      Steps rates hostname shared
        ⟨process, .takingLeases stoppable hosts leases [], acquired, released⟩ shared
        ⟨process, .body hosts leases, acquired, released⟩
  | finish {process acquired released hosts leases} :
      Steps rates hostname shared ⟨process, .body hosts leases, acquired, released⟩ shared
        ⟨process, .leavingLeases hosts leases, acquired, released⟩
  | giveBack {process acquired released hosts lease rest} :
      Steps rates hostname shared
        ⟨process, .leavingLeases hosts (lease :: rest), acquired, released⟩ (shared.free lease)
        ⟨process, .leavingLeases hosts rest, acquired, lease :: released⟩
  | exit {process acquired released hosts} :
      Steps rates hostname shared ⟨process, .leavingLeases hosts [], acquired, released⟩ shared
        ⟨process, .leavingHosts hosts, acquired, released⟩
  | release {process acquired released key rest}
      (below : shared.value rates process key < rates.cap process key) :
      Steps rates hostname shared ⟨process, .leavingHosts (key :: rest), acquired, released⟩
        (shared.setValue process key (shared.value rates process key + 1))
        ⟨process, .leavingHosts rest, acquired, released⟩
  | leave {process acquired released} :
      Steps rates hostname shared ⟨process, .leavingHosts [], acquired, released⟩ shared
        ⟨process, .idle, acquired, released⟩
  | lapse (thread : Thread) (lease : Lease) (held : lease ∈ thread.phase.leases) :
      Steps rates hostname shared thread (shared.free lease) thread

variable {shared after : Shared} {thread next : Thread}

theorem steps_of_advance (stepped : advance rates hostname shared thread = some (after, next)) :
    Steps rates hostname shared thread after next := by
  obtain ⟨process, phase, acquired, released⟩ := thread
  cases phase with
  | idle => cases stepped
  | takingHosts stoppable leaseUrls held todo =>
      cases todo with
      | nil =>
          cases read : keysFor hostname rates.rules.keys leaseUrls with
          | none =>
              simp only [advance, Thread.goTo, read, Option.elim_none] at stepped
              cases stepped
              exact .abandonHosts
          | some domains =>
              simp only [advance, Thread.goTo, read, Option.elim_some] at stepped
              cases stepped
              exact .goOn read
      | cons key todo =>
          obtain ⟨free, same⟩ := Option.ite_none_right_eq_some.mp stepped
          cases same
          exact .acquire free
  | takingLeases stoppable hosts leases todo =>
      cases todo with
      | nil =>
          cases stepped
          exact .run
      | cons domain todo =>
          obtain ⟨room, same⟩ := Option.ite_none_right_eq_some.mp stepped
          cases same
          exact .claim room
  | body hosts leases =>
      cases stepped
      exact .finish
  | leavingLeases hosts leases =>
      cases leases with
      | nil =>
          cases stepped
          exact .exit
      | cons lease rest =>
          cases stepped
          exact .giveBack
  | leavingHosts hosts =>
      cases hosts with
      | nil =>
          cases stepped
          exact .leave
      | cons key rest =>
          obtain ⟨below, same⟩ := Option.ite_none_right_eq_some.mp stepped
          cases same
          exact .release below

theorem steps_of_step {action : Action}
    (stepped : (providerSlots rates hostname).step shared thread action = some (after, next)) :
    Steps rates hostname shared thread after next := by
  have moved : step rates hostname shared thread action = some (after, next) := stepped
  unfold step at moved
  split at moved
  · exact steps_of_advance moved
  · next stoppable hostUrls leaseUrls idle =>
    obtain ⟨process, phase, acquired, released⟩ := thread
    dsimp only at idle
    subst idle
    cases read : keysFor hostname (rates.limits process).keys hostUrls with
    | none =>
        simp only [Thread.goTo, read, Option.elim_none] at moved
        cases moved
        exact .stay _
    | some keys =>
        simp only [Thread.goTo, read, Option.elim_some] at moved
        cases moved
        exact .enter read
  · cases moved
    exact .stay _
  · cases moved
    exact .stay _
  · next held _ _ taking =>
    obtain ⟨process, phase, acquired, released⟩ := thread
    dsimp only at taking
    subst taking
    cases moved
    exact .abandonHosts
  · next taking =>
    obtain ⟨process, phase, acquired, released⟩ := thread
    dsimp only at taking
    subst taking
    cases moved
    exact .abandonLeases
  · next taking =>
    obtain ⟨process, phase, acquired, released⟩ := thread
    dsimp only at taking
    subst taking
    cases moved
    exact .abandonLeases
  · next lease =>
    obtain ⟨held, same⟩ := Option.ite_none_right_eq_some.mp moved
    cases same
    exact .lapse _ lease held
  · cases moved

/-! ## The order of the domains -/

/-- What is held and what is still to be taken, in the order of the domains. -/
def Ordered (held todo : List String) : Prop := (held.reverse ++ todo).Pairwise (· < ·)

variable {todo : List String} {key : String}

theorem ordered_cons {held : List String} :
    Ordered (key :: held) todo ↔ Ordered held (key :: todo) := by
  simp [Ordered]

theorem Ordered.held {held : List String} (ordered : Ordered held todo) : Ordered held [] := by
  rw [Ordered, List.append_nil]
  exact (List.pairwise_append.mp ordered).1

theorem Ordered.tail {rest : List String} (ordered : Ordered (key :: rest) []) :
    Ordered rest [] :=
  (ordered_cons.mp ordered).held

theorem Ordered.lt {held : List String} {other : String}
    (ordered : Ordered held (key :: todo)) (member : other ∈ held) : other < key :=
  (List.pairwise_append.mp ordered).2.2 other (List.mem_reverse.mpr member) key List.mem_cons_self

theorem Ordered.not_mem {held : List String} (ordered : Ordered held (key :: todo)) : key ∉ held :=
  fun member => lt_irrefl key (ordered.lt member)

variable {keys : List String}

theorem keyFor_mem {host : String} (found : keyFor keys host = some key) :
    key ∈ keys := by
  refine List.foldlRecOn (motive := fun best => best = some key → key ∈ keys) keys _ ?_ ?_ found
  · exact fun missing => by cases missing
  · intro best kept candidate member found
    split at found
    · cases found
      exact member
    · exact kept found

theorem ordered_of_keysFor {configured urls : List String}
    (read : keysFor hostname configured urls = some keys) :
    Ordered [] keys ∧ ∀ key ∈ keys, key ∈ configured := by
  obtain ⟨hosts, _, rfl⟩ := Option.map_eq_some_iff.mp read
  refine ⟨Dict.pairwise_sortedSet _, fun key member => ?_⟩
  obtain ⟨host, _, found⟩ := List.mem_filterMap.mp (Dict.mem_sortedSet.mp member)
  exact keyFor_mem found

/-- Every domain is taken in order and has been configured. -/
def Phase.Orderly (rates : Rates) (process : Nat) : Phase → Prop
  | .idle => True
  | .takingHosts _ _ held todo =>
      Ordered held todo ∧ ∀ key ∈ todo, key ∈ (rates.limits process).keys
  | .takingLeases _ hosts leases todo =>
      Ordered hosts [] ∧ Ordered (leases.map Lease.domain) todo ∧
        ∀ domain ∈ todo, domain ∈ rates.rules.keys
  | .body hosts _ => Ordered hosts []
  | .leavingLeases hosts _ => Ordered hosts []
  | .leavingHosts hosts => Ordered hosts []

def Thread.Orderly (rates : Rates) (thread : Thread) : Prop :=
  thread.phase.Orderly rates thread.process

theorem Steps.orderly
    (steps : Steps rates hostname shared thread after next) (orderly : thread.Orderly rates) :
    next.Orderly rates := by
  cases steps with
  | stay => exact orderly
  | enter read => exact ordered_of_keysFor read
  | acquire free =>
      exact ⟨ordered_cons.mpr orderly.1, fun key member =>
        orderly.2 key (List.mem_cons_of_mem _ member)⟩
  | abandonHosts => exact orderly.1.held
  | goOn read => exact ⟨orderly.1, ordered_of_keysFor read⟩
  | claim room =>
      exact ⟨orderly.1, ordered_cons.mpr orderly.2.1, fun domain member =>
        orderly.2.2 domain (List.mem_cons_of_mem _ member)⟩
  | abandonLeases => exact orderly.1
  | run => exact orderly.1
  | finish => exact orderly
  | giveBack => exact orderly
  | exit => exact orderly
  | release below => exact Ordered.tail orderly
  | leave => trivial
  | lapse lease held => exact orderly

/-! ## Permits -/

def Thread.holdsPermit (process : Nat) (key : String) (thread : Thread) : Bool :=
  decide (thread.process = process) && decide (key ∈ thread.phase.hosts)

theorem Shared.value_setValue (shared : Shared) (process other : Nat) (key domain : String)
    (value : Nat) : (shared.setValue process key value).value rates other domain =
      if other = process ∧ domain = key then value else shared.value rates other domain := by
  unfold Shared.value Shared.setValue
  by_cases same : (other, domain) = (process, key)
  · cases same
    simp
  · have apart : ¬ (other = process ∧ domain = key) := fun both => same (Prod.ext both.1 both.2)
    rw [if_neg apart]
    exact congrArg (fun value : Option Nat => value.getD _) (Function.update_of_ne same _ _)

@[simp] theorem Shared.value_claim (shared : Shared) (domain : String) :
    (shared.claim domain).value rates = shared.value rates := rfl

@[simp] theorem Shared.value_free (shared : Shared) (lease : Lease) :
    (shared.free lease).value rates = shared.value rates := rfl

section

variable {shared : Shared} {less more : Thread} {owner : Nat} {taken : String}
  (own : less.process = owner) (too : more.process = owner)
  (has : more.phase.hosts = taken :: less.phase.hosts) (absent : taken ∉ less.phase.hosts)
  (process : Nat) (key : String)

include own too has absent

theorem holdsPermit_cons : (if more.holdsPermit process key then 1 else 0) =
    (if less.holdsPermit process key then 1 else 0) +
      if process = owner ∧ key = taken then 1 else 0 := by
  unfold Thread.holdsPermit
  rw [has, too, own]
  by_cases same : owner = process
  · subst same
    by_cases here : key = taken
    · subst here
      simp [absent]
    · simp [here]
  · simp [same, Ne.symm same]

theorem permits_taken (free : 0 < shared.value rates owner taken) :
    (shared.setValue owner taken (shared.value rates owner taken - 1)).value rates process key +
        (if more.holdsPermit process key then 1 else 0) =
      shared.value rates process key + if less.holdsPermit process key then 1 else 0 := by
  rw [Shared.value_setValue, holdsPermit_cons own too has absent]
  split
  · next same =>
    obtain ⟨rfl, rfl⟩ := same
    omega
  · rfl

theorem permits_given :
    (shared.setValue owner taken (shared.value rates owner taken + 1)).value rates process key +
        (if less.holdsPermit process key then 1 else 0) =
      shared.value rates process key + if more.holdsPermit process key then 1 else 0 := by
  rw [Shared.value_setValue, holdsPermit_cons own too has absent]
  split
  · next same =>
    obtain ⟨rfl, rfl⟩ := same
    omega
  · rfl

end

/-- What a step gives to its thread, it takes from the semaphore, and the other way. -/
theorem Steps.permits
    (steps : Steps rates hostname shared thread after next) (orderly : thread.Orderly rates)
    (process : Nat) (key : String) :
    after.value rates process key + (if next.holdsPermit process key then 1 else 0) =
      shared.value rates process key + if thread.holdsPermit process key then 1 else 0 := by
  cases steps with
  | acquire free =>
      apply permits_taken
      · rfl
      · rfl
      · rfl
      · exact orderly.1.not_mem
      · exact free
  | release below =>
      apply permits_given
      · rfl
      · rfl
      · rfl
      · exact (ordered_cons.mp orderly).not_mem
  | _ => rfl

/-! ## Leases -/

variable {domain : String} {id : Nat}

theorem Shared.mem_free {lease : Lease} (present : id ∈ (shared.free lease).slots domain) :
    id ∈ shared.slots domain ∧ (⟨domain, id⟩ : Lease) ≠ lease := by
  unfold Shared.free at present
  by_cases same : domain = lease.domain
  · subst same
    dsimp only at present
    rw [Function.update_self] at present
    obtain ⟨member, other⟩ := List.mem_filter.mp present
    exact ⟨member, fun equal => of_decide_eq_true other (congrArg Lease.id equal)⟩
  · dsimp only at present
    rw [Function.update_of_ne same] at present
    exact ⟨present, fun equal => same (congrArg Lease.domain equal)⟩

/-- A lease that is in its slot after a step is held by the thread of the step, or it was in
the slot before and the thread did not hold it. -/
theorem Steps.slots (steps : Steps rates hostname shared thread after next)
    (present : id ∈ after.slots domain) :
    ⟨domain, id⟩ ∈ next.phase.leases ∨
      id ∈ shared.slots domain ∧ (⟨domain, id⟩ : Lease) ∉ thread.phase.leases := by
  by_cases held : (⟨domain, id⟩ : Lease) ∈ next.phase.leases
  · exact .inl held
  · refine .inr ?_
    cases steps with
    | @claim _ _ _ _ _ _ taken _ room =>
        have others := mt (List.mem_cons_of_mem _) held
        refine ⟨?_, others⟩
        unfold Shared.claim at present
        by_cases same : domain = taken
        · subst same
          dsimp only at present
          rw [Function.update_self] at present
          rcases List.mem_cons.mp present with rfl | earlier
          · exact absurd List.mem_cons_self held
          · exact earlier
        · dsimp only at present
          rwa [Function.update_of_ne same] at present
    | giveBack =>
        obtain ⟨member, other⟩ := Shared.mem_free present
        exact ⟨member, fun among => (List.mem_cons.mp among).elim other held⟩
    | lapse lease _ => exact ⟨(Shared.mem_free present).1, held⟩
    | _ => exact ⟨present, held⟩

/-- Every lease that a thread acquired it holds or has released, and it acquired none twice. -/
structure Thread.Accounted (thread : Thread) (nextLease : Nat) : Prop where
  whole : thread.acquired.Perm (thread.released ++ thread.phase.leases)
  distinct : thread.acquired.Nodup
  issued : ∀ lease ∈ thread.acquired, lease.id < nextLease

theorem Thread.Accounted.later {nextLease later : Nat}
    (accounted : thread.Accounted nextLease) (passed : nextLease ≤ later) :
    thread.Accounted later :=
  ⟨accounted.whole, accounted.distinct, fun lease member =>
    Nat.lt_of_lt_of_le (accounted.issued lease member) passed⟩

theorem Steps.nextLease_le (steps : Steps rates hostname shared thread after next) :
    shared.nextLease ≤ after.nextLease := by
  cases steps with
  | claim room => exact Nat.le_succ _
  | _ => exact Nat.le_refl _

theorem Steps.accounted (steps : Steps rates hostname shared thread after next)
    (accounted : thread.Accounted shared.nextLease) : next.Accounted after.nextLease := by
  obtain ⟨whole, distinct, issued⟩ := accounted
  cases steps with
  | claim room =>
      refine ⟨?_, List.nodup_cons.mpr ⟨fun member => ?_, distinct⟩, ?_⟩
      · exact (whole.cons _).trans List.perm_middle.symm
      · exact absurd (issued _ member) (Nat.lt_irrefl _)
      · exact List.forall_mem_cons.mpr ⟨Nat.lt_succ_self _, fun lease member =>
          Nat.lt_succ_of_lt (issued lease member)⟩
  | giveBack => exact ⟨whole.trans List.perm_middle, distinct, issued⟩
  | _ => exact ⟨whole, distinct, issued⟩

/-! ## Every run -/

structure Sound (rates : Rates) (config : Config Shared Thread) : Prop where
  orderly : ∀ thread ∈ config.threads, thread.Orderly rates
  accounted : ∀ thread ∈ config.threads, thread.Accounted config.shared.nextLease
  permits : ∀ process key, config.shared.value rates process key +
    config.count (Thread.holdsPermit process key) = rates.cap process key
  occupied : ∀ domain, ∀ id ∈ config.shared.slots domain,
    ∃ thread ∈ config.threads, ⟨domain, id⟩ ∈ thread.phase.leases

theorem sound_idle (rates : Rates) (processes : List Nat) :
    Sound rates (idleThreads processes) where
  orderly := List.forall_mem_map.mpr fun _ _ => trivial
  accounted := List.forall_mem_map.mpr fun _ _ => ⟨.refl _, .nil, fun _ member => by cases member⟩
  permits process key := by
    have unheld : (idleThreads processes).count (Thread.holdsPermit process key) = 0 := by
      refine Config.count_eq_zero.mpr (List.forall_mem_map.mpr fun owner _ => ?_)
      simp [Thread.holdsPermit, Phase.hosts]
    rw [unheld]
    rfl
  occupied domain id member := by cases member

variable {config : Config Shared Thread}

theorem Sound.step (sound : Sound rates config) {action : Action} {before after : Thread}
    {next : Config Shared Thread}
    (moves : Moves (providerSlots rates hostname) config action before after next) :
    Sound rates next := by
  have steps := steps_of_step moves.stepped
  have moved := sound.orderly before moves.mem
  constructor
  · intro thread member
    rcases moves.mem_next member with rfl | stayed
    · exact steps.orderly moved
    · exact sound.orderly thread stayed
  · intro thread member
    rcases moves.mem_next member with rfl | stayed
    · exact steps.accounted (sound.accounted before moves.mem)
    · exact (sound.accounted thread stayed).later steps.nextLease_le
  · intro process key
    have total := sound.permits process key
    have counted := moves.count (Thread.holdsPermit process key)
    have conserved := steps.permits moved process key
    omega
  · intro domain id present
    rcases steps.slots present with held | ⟨earlier, unheld⟩
    · exact ⟨after, moves.after_mem, held⟩
    · obtain ⟨thread, member, held⟩ := sound.occupied domain id earlier
      rcases moves.mem_stays member with rfl | stayed
      · exact absurd held unheld
      · exact ⟨thread, stayed, held⟩

theorem sound_of_reachable {processes : List Nat}
    (reachable : Reachable (providerSlots rates hostname) (idleThreads processes) config) :
    Sound rates config :=
  reachable.invariant (Sound rates) (sound_idle rates processes) fun sound moves => sound.step moves

/-! ## Waiting -/

/-- A host slot or a distributed slot; every host slot comes first. -/
abbrev Slot := String ⊕ₗ String

def Phase.waits : Phase → Option Slot
  | .takingHosts _ _ _ (key :: _) => some (toLex (.inl key))
  | .takingLeases _ _ _ (domain :: _) => some (toLex (.inr domain))
  | _ => none

def Phase.Holds (phase : Phase) (slot : Slot) : Prop :=
  (∃ key ∈ phase.hosts, slot = toLex (.inl key)) ∨
    ∃ lease ∈ phase.leases, slot = toLex (.inr lease.domain)

theorem Thread.Orderly.above (orderly : thread.Orderly rates) {wanted held : Slot}
    (waiting : thread.phase.waits = some wanted) (holds : thread.phase.Holds held) :
    held < wanted := by
  obtain ⟨process, phase, acquired, released⟩ := thread
  cases phase with
  | takingHosts stoppable leaseUrls taken todo =>
      cases todo with
      | nil => cases waiting
      | cons key todo =>
          cases waiting
          rcases holds with ⟨other, member, rfl⟩ | ⟨lease, member, _⟩
          · exact Sum.Lex.inl_lt_inl_iff.mpr (orderly.1.lt member)
          · cases member
  | takingLeases stoppable hosts leases todo =>
      cases todo with
      | nil => cases waiting
      | cons domain todo =>
          cases waiting
          rcases holds with ⟨other, member, rfl⟩ | ⟨lease, member, rfl⟩
          · exact Sum.Lex.inl_lt_inr _ _
          · exact Sum.Lex.inr_lt_inr_iff.mpr (orderly.2.1.lt (List.mem_map_of_mem member))
  | _ => cases waiting

/-- Every cap and every number of slots is at least one. -/
structure Rates.Positive (rates : Rates) : Prop where
  limits : ∀ process, ∀ entry ∈ rates.limits process, 1 ≤ entry.2
  rules : ∀ entry ∈ rates.rules, 1 ≤ entry.2

theorem getD_pos {dict : Dict String Nat} (positive : ∀ entry ∈ dict, 1 ≤ entry.2)
    (member : key ∈ dict.keys) : 0 < (dict.get? key).getD 0 := by
  obtain ⟨value, found⟩ := Option.isSome_iff_exists.mp (Dict.get?_isSome_iff_mem_keys.mpr member)
  rw [found]
  exact positive _ (Dict.get?_eq_some_mem found)

theorem Sound.advances (sound : Sound rates config)
    (member : thread ∈ config.threads) (waiting : thread.phase.waits = none) {slot : Slot}
    (holds : thread.phase.Holds slot) :
    (advance rates hostname config.shared thread).isSome = true := by
  obtain ⟨process, phase, acquired, released⟩ := thread
  cases phase with
  | idle =>
      rcases holds with ⟨_, none, _⟩ | ⟨_, none, _⟩
      · cases none
      · cases none
  | takingHosts stoppable leaseUrls held todo =>
      cases todo with
      | nil => rfl
      | cons key todo => cases waiting
  | takingLeases stoppable hosts leases todo =>
      cases todo with
      | nil => rfl
      | cons domain todo => cases waiting
  | body hosts leases => rfl
  | leavingLeases hosts leases => cases leases <;> rfl
  | leavingHosts hosts =>
      cases hosts with
      | nil => rfl
      | cons key rest =>
          have counted : 0 < config.count (Thread.holdsPermit process key) :=
            Config.count_pos.mpr ⟨_, member, by simp [Thread.holdsPermit, Phase.hosts]⟩
          have total := sound.permits process key
          have below : config.shared.value rates process key < rates.cap process key := by omega
          simp [advance, below]

theorem Sound.some_advance (sound : Sound rates config) (positive : rates.Positive)
    (member : thread ∈ config.threads) (waiting : thread.phase.waits.isSome = true) :
    ∃ other ∈ config.threads, (advance rates hostname config.shared other).isSome = true := by
  obtain ⟨top, present, wanted, waits, freed⟩ := exists_free_wait
    (fun other also _ waits _ holds => (sound.orderly other also).above waits holds) member waiting
  have orderly := sound.orderly top present
  obtain ⟨process, phase, acquired, released⟩ := top
  cases phase with
  | takingHosts stoppable leaseUrls held todo =>
      cases todo with
      | nil => cases waits
      | cons key todo =>
          cases waits
          by_cases free : 0 < config.shared.value rates process key
          · exact ⟨_, present, by simp [advance, free]⟩
          · have total := sound.permits process key
            have capped : 0 < rates.cap process key :=
              getD_pos (positive.limits process) (orderly.2 key List.mem_cons_self)
            have counted : 0 < config.count (Thread.holdsPermit process key) := by omega
            obtain ⟨holder, also, permit⟩ := Config.count_pos.mp counted
            have holds : holder.phase.Holds (toLex (.inl key)) :=
              .inl ⟨key, of_decide_eq_true (Bool.and_eq_true_iff.mp permit).2, rfl⟩
            exact ⟨holder, also, sound.advances also (freed holder also holds) holds⟩
  | takingLeases stoppable hosts leases todo =>
      cases todo with
      | nil => cases waits
      | cons domain todo =>
          cases waits
          by_cases room : (config.shared.slots domain).length < rates.slots domain
          · exact ⟨_, present, by simp [advance, room]⟩
          · have several : 0 < rates.slots domain :=
              getD_pos positive.rules (orderly.2.2 domain List.mem_cons_self)
            obtain ⟨id, occupies⟩ := List.exists_mem_of_length_pos
              (Nat.lt_of_lt_of_le several (not_lt.mp room))
            obtain ⟨holder, also, lease⟩ := sound.occupied domain id occupies
            have holds : holder.phase.Holds (toLex (.inr domain)) := .inr ⟨_, lease, rfl⟩
            exact ⟨holder, also, sound.advances also (freed holder also holds) holds⟩
  | _ => cases waits

end

/-! ## One permit and two threads -/

def granicus : Rates where
  limits _ := [("granicus.com", 1)]
  rules := [("granicus.com", 1)]

theorem granicus_positive : granicus.Positive where
  limits _ := List.forall_mem_singleton.mpr (Nat.le_refl 1)
  rules := List.forall_mem_singleton.mpr (Nat.le_refl 1)

def archive (_ : String) : Option String := some "archive-video.granicus.com"

/-- The first thread is in its body, the second waits for the host slot. -/
def contention : List (Nat × Action) :=
  [(0, .enter true ["first"] ["first"]), (1, .enter true ["second"] ["second"]), (0, .advance),
    (0, .advance), (0, .advance), (0, .advance), (1, .poll)]

theorem contention_runs :
    (execute (providerSlots granicus archive) (idleThreads [7, 7]) contention).isSome = true := by
  decide +kernel

def contended : Config Shared Thread :=
  (execute (providerSlots granicus archive) (idleThreads [7, 7]) contention).get contention_runs

end ProviderSlots

end CityPods.Ops
