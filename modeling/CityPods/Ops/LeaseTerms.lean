import CityPods.Ops.MaintenanceLeases

/-! # The terms of lease calls

What each call on maintenance leases counts on while others run between its
steps, which writes it makes, and what its outcome says about the objects.
-/

namespace CityPods.Ops

open Foundation
open Foundation.Objects (Session Terms Forward)

namespace MaintenanceLeases

abbrev State := Objects.State String Data Int

/-! ## Held objects -/

def Payload.Live (payload : Payload) (clock : Int) : Prop :=
  payload.state = some held ∧ ∃ expiresAt, payload.expiresAt = some expiresAt ∧ clock < expiresAt

variable {payload : Payload}

theorem Payload.Live.earlier {clock before : Int} (live : payload.Live clock)
    (le : before ≤ clock) : payload.Live before := by
  obtain ⟨isHeld, expiresAt, present, ahead⟩ := live
  exact ⟨isHeld, expiresAt, present, by omega⟩

theorem activeOwner_eq_none_iff (data : Data) (clock : Int) :
    activeOwner data clock = none ↔ ∀ payload, data = .lease payload → ¬ payload.Live clock := by
  cases data with
  | corrupt => simp [activeOwner]
  | lease payload =>
      cases present : payload.expiresAt with
      | none => simp [activeOwner, Payload.Live, present]
      | some expiresAt =>
          by_cases isHeld : payload.state = some held <;>
            simp [activeOwner, Payload.Live, present, isHeld]

def Carries (state : State) (key token : String) (payload : Payload) : Prop :=
  ∃ etag, state.object key = some (.lease payload, etag) ∧ payload.token = some token

/-- The key is held under the token, and the lease has not expired. -/
def Holds (state : State) (key token : String) : Prop :=
  ∃ payload, Carries state key token payload ∧ payload.Live state.clock

/-- The key is held, under whichever token. -/
def Busy (state : State) (key : String) : Prop :=
  ∃ payload etag, state.object key = some (.lease payload, etag) ∧ payload.Live state.clock

variable {state after : State} {token : String} {key : String}

theorem Carries.of_object_eq
    (carries : Carries after key token payload) (same : after.object key = state.object key) :
    Carries state key token payload := by
  obtain ⟨etag, stored, named⟩ := carries
  exact ⟨etag, same ▸ stored, named⟩

theorem Carries.unique {other : String} {another : Payload}
    (carries : Carries state key token payload) (also : Carries state key other another) :
    payload = another ∧ token = other := by
  obtain ⟨_, stored, named⟩ := carries
  obtain ⟨_, storedToo, namedToo⟩ := also
  cases stored.symm.trans storedToo
  exact ⟨rfl, Option.some.inj (named.symm.trans namedToo)⟩

/-! ## Tokens that others leave alone -/

def Unwritten (token : String) (state after : State) : Prop :=
  ∀ key payload, Carries after key token payload → after.object key = state.object key

/-- Nobody writes the token, and what is held under it stays until it expires. -/
structure Spared (token : String) (state after : State) : Prop where
  unwritten : Unwritten token state after
  kept : ∀ key payload, Carries state key token payload → payload.Live after.clock →
    after.object key = state.object key

variable {first second third : State}

theorem Unwritten.trans
    (earlier : Unwritten token first second) (later : Unwritten token second third) :
    Unwritten token first third := by
  intro key payload carries
  have same := later key payload carries
  exact same.trans (earlier key payload (carries.of_object_eq same))

theorem Spared.trans (earlier : Spared token first second) (later : Spared token second third)
    (clock : second.clock ≤ third.clock) : Spared token first third where
  unwritten := earlier.unwritten.trans later.unwritten
  kept key payload carries live := by
    have same := earlier.kept key payload carries (live.earlier clock)
    exact (later.kept key payload (carries.of_object_eq same.symm) live).trans same

def Relies (tokens : List String) (state after : State) : Prop :=
  Forward state after ∧ ∀ token ∈ tokens, Spared token state after

theorem Relies.trans {tokens : List String}
    (earlier : Relies tokens first second) (later : Relies tokens second third) :
    Relies tokens first third :=
  ⟨earlier.1.trans later.1, fun token member =>
    (earlier.2 token member).trans (later.2 token member) later.1.clock⟩

/-- The writes of a call whose keys are paired with its tokens: over its own
lease, or, where it acquires, a held lease over an object that is not held. -/
def Permitted (acquires : Prop) (pairs : List (String × String)) (state : State) (key : String)
    (data : Data) : Prop :=
  ∃ payload token, data = .lease payload ∧ (key, token) ∈ pairs ∧ payload.token = some token ∧
    ((∃ previous, Carries state key token previous) ∨
      (acquires ∧ payload.state = some held ∧ ¬ Busy state key))

def terms (tokens : List String) (acquires : Prop) (pairs : List (String × String)) :
    Terms String Data Int where
  rely := Relies tokens
  rely_refl state := ⟨.refl state, fun _ _ => ⟨fun _ _ _ => rfl, fun _ _ _ _ => rfl⟩⟩
  rely_trans := Relies.trans
  permits := Permitted acquires pairs

/-! ## What is known of a token -/

def Unissued (token : String) (state : State) : Prop :=
  ∀ key payload, ¬ Carries state key token payload

def Free (token : String) (state : State) : Prop := ∀ key, ¬ Holds state key token

/-- The token is in no object but the lease's own. -/
def OnlyOf (lease : MaintenanceLease) (state : State) : Prop :=
  ∀ key payload, Carries state key lease.token payload →
    key = lease.key ∧ payload.owner = some lease.owner

section

variable {token : String} {lease : MaintenanceLease} {state after : State}

theorem Unissued.free (unissued : Unissued token state) : Free token state := by
  rintro key ⟨payload, carries, _⟩
  exact unissued key payload carries

theorem Unissued.later (unissued : Unissued token state) (unwritten : Unwritten token state after) :
    Unissued token after :=
  fun key payload carries => unissued key payload (carries.of_object_eq (unwritten _ _ carries))

theorem Free.later (free : Free token state) (unwritten : Unwritten token state after)
    (clock : state.clock ≤ after.clock) : Free token after := by
  rintro key ⟨payload, carries, live⟩
  exact free key ⟨payload, carries.of_object_eq (unwritten _ _ carries), live.earlier clock⟩

theorem OnlyOf.later (only : OnlyOf lease state) (unwritten : Unwritten lease.token state after) :
    OnlyOf lease after :=
  fun key payload carries => only key payload (carries.of_object_eq (unwritten _ _ carries))

theorem unwritten_read (key : String) : Unwritten token state (state.read key) :=
  fun _ _ _ => rfl

theorem object_put_self (state : State) (key : String) (data : Data) :
    (state.put key data).object key = some (data, state.store.nextETag) :=
  state.store.put_object_same key data

variable {key other : String}

theorem object_put_other (state : State) (data : Data)
    (different : other ≠ key) : (state.put key data).object other = state.object other :=
  state.store.put_object_other data different

theorem unwritten_put (named : payload.token = some other)
    (different : token ≠ other) : Unwritten token state (state.put key (.lease payload)) := by
  rintro at_ written ⟨etag, stored, carried⟩
  by_cases same : at_ = key
  · subst same
    rw [object_put_self] at stored
    cases stored
    exact absurd (Option.some.inj (carried.symm.trans named)) different
  · exact object_put_other state _ same

end

/-! ## Reading one's own lease -/

/-- The object is the lease's own, held and unexpired. -/
structure MaintenanceLease.Owns (lease : MaintenanceLease) (payload : Payload) (clock : Int) :
    Prop where
  owner : payload.owner = some lease.owner
  token : payload.token = some lease.token
  live : payload.Live clock

theorem MaintenanceLease.owns_iff (lease : MaintenanceLease) {expiresAt : Int}
    (present : payload.expiresAt = some expiresAt) (clock : Int) :
    lease.owns payload expiresAt clock = true ↔ lease.Owns payload clock := by
  have live : payload.Live clock ↔ payload.state = some held ∧ clock < expiresAt := by
    simp [Payload.Live, present]
  constructor
  · intro owns
    simp only [MaintenanceLease.owns, Bool.and_eq_true, beq_iff_eq, decide_eq_true_eq] at owns
    exact ⟨owns.1.1.2, owns.1.2, live.mpr ⟨owns.1.1.1, owns.2⟩⟩
  · intro owns
    have current := live.mp owns.live
    simp [MaintenanceLease.owns, owns.owner, owns.token, current]

/-- The exceptions by which a call tells that a lease is no longer its own. -/
def Error.IsLoss : Error → Prop
  | .busy _ => True
  | .unavailable _ => True
  | _ => False

/-- What `readOwned` knows: the object it read was the lease's own, or no object
of the lease's own is live any more. -/
def ReadOutcome (lease : MaintenanceLease) (tokens : List String) (state : State) :
    Except Error (Payload × ETag) → State → Prop
  | .ok (payload, etag), later => ∃ earlier : State, Relies tokens state earlier ∧
      earlier.object lease.key = some (.lease payload, etag) ∧ lease.Owns payload earlier.clock ∧
        Relies tokens (earlier.read lease.key) later
  | .error error, later => error = .storage ∨ error.IsLoss ∧ ∃ earlier : State,
      Relies tokens state earlier ∧ Relies tokens (earlier.read lease.key) later ∧
        ∀ payload etag, earlier.object lease.key = some (.lease payload, etag) →
          ¬ lease.Owns payload later.clock

/-- Since the first state, the lease's object was read while it was the lease's
own, held and unexpired. -/
def Seen (lease : MaintenanceLease) (first later : State) : Prop :=
  ∃ newer, later.log = newer ++ first.log ∧ ∃ payload etag clock,
    Objects.Entry.read lease.key (some (.lease payload, etag)) clock ∈ newer ∧
      lease.Owns payload clock

section

variable {tokens : List String} {acquires : Prop} {pairs : List (String × String)} {state : State}
  (lease : MaintenanceLease)

theorem readOwned_safe :
    lease.readOwned.Safe (terms tokens acquires pairs) (ReadOutcome lease tokens state) state := by
  refine Session.safe_getBytes ?_ fun later _ => .inl rfl
  intro earlier passed
  cases stored : earlier.object lease.key with
  | none =>
      refine Session.safe_throw fun later more => .inr ⟨trivial, earlier, passed, more, ?_⟩
      intro payload etag present
      cases stored.symm.trans present
  | some object =>
      obtain ⟨data, etag⟩ := object
      cases data with
      | corrupt =>
          refine Session.safe_throw fun later more => .inr ⟨trivial, earlier, passed, more, ?_⟩
          intro payload etag present
          cases stored.symm.trans present
      | lease payload =>
          cases expiry : payload.expiresAt with
          | none =>
              dsimp only
              rw [expiry]
              refine Session.safe_throw fun later more => .inr ⟨trivial, earlier, passed, more, ?_⟩
              rintro other tag present ⟨_, _, _, expiresAt, given, _⟩
              cases stored.symm.trans present
              cases expiry.symm.trans given
          | some expiresAt =>
              dsimp only
              rw [expiry]
              refine Session.safe_now fun read more => ?_
              by_cases owns : lease.owns payload expiresAt read.clock = true
              · rw [if_pos owns]
                have owned := (lease.owns_iff expiry _).mp owns
                exact Session.safe_pure fun later rest => ⟨earlier, passed, stored,
                  ⟨owned.owner, owned.token, owned.live.earlier more.1.clock⟩, more.trans rest⟩
              · rw [if_neg owns]
                refine Session.safe_throw fun later rest =>
                  .inr ⟨trivial, earlier, passed, more.trans rest, ?_⟩
                intro other tag present owned
                cases stored.symm.trans present
                exact owns ((lease.owns_iff expiry _).mpr
                  ⟨owned.owner, owned.token, owned.live.earlier rest.1.clock⟩)

/-- A write over the object that `readOwned` returned replaces that object. -/
theorem ReadOutcome.carries {lease : MaintenanceLease} {etag : ETag}
    {later last : State} (fresh : state.store.Fresh)
    (read : ReadOutcome lease tokens state (.ok (payload, etag)) later)
    (passed : Relies tokens later last)
    (admitted : last.store.admits lease.key (.ifMatch etag) = true) :
    Carries last lease.key lease.token payload := by
  obtain ⟨earlier, before, stored, owns, after⟩ := read
  have unread : Forward (earlier.read lease.key) last := (after.trans passed).1
  exact ⟨etag, unread.admits_ifMatch (before.1.fresh fresh) stored admitted, owns.token⟩

theorem renew_safe (mine : (lease.key, lease.token) ∈ pairs) (fresh : state.store.Fresh) :
    lease.renew.Safe (terms tokens acquires pairs) (fun _ _ => True) state := by
  refine (readOwned_safe lease).bind ?_ fun _ _ _ _ _ => trivial
  rintro ⟨payload, etag⟩ later read
  refine Session.safe_now fun middle waited => ?_
  refine Session.safe_putBytes ?_ fun _ _ _ => trivial
  intro last passed admitted
  have carries := read.carries fresh (waited.trans passed) admitted
  refine ⟨⟨_, lease.token, rfl, mine, rfl, .inl ⟨payload, carries⟩⟩, ?_⟩
  exact Session.safe_pure fun _ _ => trivial

/-- A release raises only what a storage call raised; where it raises nothing, no
key is held under a token that the call has to itself. -/
def Released (lease : MaintenanceLease) (tokens : List String) (state : State)
    (outcome : Except Error MaintenanceLease) (later : State) : Prop :=
  (∀ error, outcome = .error error → error = .storage) ∧
    (lease.token ∈ tokens → OnlyOf lease state → ∀ result, outcome = .ok result →
      Free lease.token later)

theorem release_safe (tokens : List String) (acquires : Prop)
    (mine : (lease.key, lease.token) ∈ pairs) (fresh : state.store.Fresh) :
    lease.release.Safe (terms tokens acquires pairs) (Released lease tokens state) state := by
  have ends {before : State} {outcome : MaintenanceLease}
      (free : lease.token ∈ tokens → OnlyOf lease state → Free lease.token before) :
      (pure outcome : Calls MaintenanceLease).Safe (terms tokens acquires pairs)
        (Released lease tokens state) before :=
    Session.safe_pure fun last passed => ⟨nofun, fun member only _ _ =>
      (free member only).later (passed.2 _ member).unwritten passed.1.clock⟩
  have raises {before : State} :
      (throw .storage : Calls MaintenanceLease).Safe (terms tokens acquires pairs)
        (Released lease tokens state) before :=
    Session.safe_throw fun _ _ => ⟨fun _ same => (Except.error.inj same).symm, nofun⟩
  refine (readOwned_safe lease).attempt ?_
  rintro (error | ⟨payload, etag⟩) later read
  · rcases read with rfl | ⟨loss, earlier, before, after, gone⟩
    · exact raises
    · -- no object of the lease's own is live where the error is swallowed
      have swallowed (member : lease.token ∈ tokens) (only : OnlyOf lease state) :
          Free lease.token later := by
        rintro key ⟨payload, carries, live⟩
        have unwritten := (after.2 _ member).unwritten
        have here := carries.of_object_eq (unwritten _ _ carries)
        obtain ⟨rfl, owner⟩ := only.later (before.2 _ member).unwritten key payload here
        obtain ⟨etag, stored, named⟩ := here
        exact gone payload etag stored ⟨owner, named, live⟩
      cases error with
      | busy text => exact ends swallowed
      | unavailable text => exact ends swallowed
      | valueError text => exact loss.elim
      | casConflict => exact loss.elim
      | storage => exact loss.elim
  · obtain ⟨earlier, before, stored, owns, after⟩ := id read
    refine Session.safe_now fun middle waited => ?_
    have since {last : State} (passed : Relies tokens middle last) (member : lease.token ∈ tokens) :
        Unwritten lease.token earlier last :=
      (unwritten_read lease.key).trans (((after.trans waited).trans passed).2 _ member).unwritten
    refine Session.safe_tryPut ?_ ?_ fun last passed => raises
    · intro last passed admitted
      have carries := read.carries fresh (waited.trans passed) admitted
      refine ⟨⟨_, lease.token, rfl, mine, rfl, .inl ⟨payload, carries⟩⟩, ends ?_⟩
      rintro member only key ⟨other, ⟨tag, present, named⟩, live⟩
      by_cases same : key = lease.key
      · subst same
        rw [object_put_self] at present
        cases present
        exact absurd live.1 (show some released ≠ some held by decide)
      · have there := (object_put_other last _ same).symm.trans present
        have onlyThen := only.later (before.2 _ member).unwritten
        exact same (onlyThen.later (since passed member) key other ⟨tag, there, named⟩).1
    · intro last passed refused
      refine ends ?_
      rintro member only key ⟨other, ⟨tag, present, named⟩, live⟩
      have there := since passed member key other ⟨tag, present, named⟩
      have onlyThen := only.later (before.2 _ member).unwritten
      have here := onlyThen key other ⟨tag, there ▸ present, named⟩
      rw [here.1] at present there
      cases stored.symm.trans (there.symm.trans present)
      -- the object is still the one that was read, so the write was not refused
      have admitted : last.store.admits lease.key (.ifMatch etag) = true :=
        (Option.any_eq_true ..).mpr ⟨_, present, beq_self_eq_true etag⟩
      exact Bool.noConfusion (admitted.symm.trans refused)

/-- An assertion that succeeds has seen the lease's own live object. -/
theorem assertHeld_safe :
    lease.assertHeld.Safe (terms tokens acquires pairs)
      (fun outcome later => ∀ seen, outcome = .ok seen → Seen lease state later) state := by
  refine (readOwned_safe lease).bind ?_ fun _ _ _ _ _ _ impossible => by cases impossible
  rintro ⟨payload, etag⟩ later ⟨earlier, before, stored, owns, after⟩
  refine Session.safe_pure fun last passed _ _ => ?_
  obtain ⟨older, grown⟩ := before.1.log
  obtain ⟨newer, added⟩ := (after.trans passed).1.log
  refine ⟨newer ++ .read lease.key (earlier.object lease.key) earlier.clock :: older, ?_,
    payload, etag, earlier.clock, ?_, owns⟩
  · rw [added, List.append_assoc, List.cons_append, ← grown]
    rfl
  · rw [stored]
    simp

end

/-! ## Several leases in turn -/

/-- What a call leaves as it is: the tokens that it neither owns nor is spared. -/
def Leaves (tokens : List String) (pairs : List (String × String)) (state after : State) : Prop :=
  Forward state after ∧ ∀ token ∈ tokens, (∀ pair ∈ pairs, token ≠ pair.2) →
    Unwritten token state after

theorem Leaves.trans {tokens : List String} {pairs : List (String × String)}
    (earlier : Leaves tokens pairs first second)
    (later : Leaves tokens pairs second third) : Leaves tokens pairs first third :=
  ⟨earlier.1.trans later.1, fun token member other =>
    (earlier.2 token member other).trans (later.2 token member other)⟩

theorem leaves_of_touches {acquires : Prop} {pairs : List (String × String)}
    (tokens : List String) (touches : Objects.Touches (Permitted acquires pairs state) state after) :
    Leaves tokens pairs state after := by
  refine ⟨touches.forward, fun token _ other => ?_⟩
  cases touches with
  | same => exact fun _ _ _ => rfl
  | read key => exact unwritten_read key
  | put key data permitted =>
      obtain ⟨payload, written, rfl, owned, named, _⟩ := permitted
      exact unwritten_put named (other _ owned)

section

variable {α : Type} {ε : Type} {tokens : List String} {acquires : Prop}
  {pairs : List (String × String)} {state : State}

theorem leaving {session : Session String Data Int ε α} {fewer : Prop}
    {some_ : List (String × String)} {promise : Except ε α → State → Prop}
    (safe : session.Safe (terms tokens fewer some_) promise state)
    (implies : fewer → acquires) (included : some_ ⊆ pairs) :
    session.Safe (terms tokens acquires pairs)
      (fun outcome later => promise outcome later ∧ Leaves tokens some_ state later) state := by
  have framed : session.Safe (terms tokens fewer some_)
      (fun outcome later => promise outcome later ∧ Leaves tokens some_ state later) state :=
    safe.frame Leaves.trans
      (fun passed => ⟨passed.1, fun token member _ => (passed.2 token member).unwritten⟩)
      (leaves_of_touches tokens)
  refine framed.permit id ?_
  rintro before key data ⟨payload, token, written, owned, named, above⟩
  refine ⟨payload, token, written, included owned, named, ?_⟩
  exact above.imp_right fun claim => ⟨implies claim.1, claim.2⟩

theorem inTurn_safe {act : MaintenanceLease → Calls MaintenanceLease}
    (each : MaintenanceLease → State → Prop) (leases : List MaintenanceLease)
    (stable : ∀ {lease before after}, each lease before → Forward before after → each lease after)
    (one : ∀ lease ∈ leases, ∀ middle, Forward state middle →
      (act lease).Safe (terms tokens acquires pairs)
        (fun outcome later => ∀ result, outcome = .ok result → each lease later) middle) :
    (inTurn act leases).Safe (terms tokens acquires pairs)
      (fun outcome later => ∀ results, outcome = .ok results → ∀ lease ∈ leases, each lease later)
      state := by
  induction leases generalizing state with
  | nil => exact Session.safe_pure fun _ _ _ _ _ member => by cases member
  | cons lease rest induction =>
      have first := leaving (one lease List.mem_cons_self state (.refl state)) id fun _ => id
      refine first.bind ?_ fun _ _ _ _ _ _ impossible => by cases impossible
      intro result middle done
      have others := leaving (@induction middle fun other member last forward =>
        one other (List.mem_cons_of_mem _ member) last (done.2.1.trans forward)) id fun _ => id
      refine others.bind ?_ fun _ _ _ _ _ _ impossible => by cases impossible
      intro results last ended
      refine Session.safe_pure fun final passed _ _ other member => ?_
      rcases List.mem_cons.mp member with rfl | member
      · exact stable (done.1 result rfl) (ended.2.1.trans passed.1)
      · exact stable (ended.1 results rfl other member) passed.1

def MaintenanceLease.pair (lease : MaintenanceLease) : String × String := (lease.key, lease.token)

theorem releases_safe (tokens : List String) (leases : List MaintenanceLease)
    (fresh : state.store.Fresh)
    (distinct : (leases.map (·.token)).Nodup) (members : ∀ lease ∈ leases, lease.token ∈ tokens)
    (only : ∀ lease ∈ leases, OnlyOf lease state) :
    (inTurn MaintenanceLease.release leases).Safe
      (terms tokens False (leases.map MaintenanceLease.pair))
      (fun outcome later => (∀ error, outcome = .error error → error = .storage) ∧
        ∀ results, outcome = .ok results → ∀ lease ∈ leases, Free lease.token later) state := by
  induction leases generalizing state with
  | nil =>
      exact Session.safe_pure fun _ _ =>
        ⟨nofun, fun _ _ _ member => by cases member⟩
  | cons lease rest induction =>
      obtain ⟨apart, distinct⟩ := List.nodup_cons.mp distinct
      have member := members lease List.mem_cons_self
      have one := release_safe lease tokens False (List.mem_singleton_self lease.pair) fresh
      refine (leaving one id (List.cons_subset.mpr ⟨List.mem_cons_self, List.nil_subset _⟩)).bind ?_
        fun error later raised _ _ => ⟨fun _ same => Except.error.inj same ▸ raised.1.1 error rfl, nofun⟩
      intro result middle ⟨released, left⟩
      have others := @induction middle (left.1.fresh fresh) distinct
        (fun other within => members other (List.mem_cons_of_mem _ within))
        (fun other within => (only other (List.mem_cons_of_mem _ within)).later
          (left.2 _ (members other (List.mem_cons_of_mem _ within)) fun pair single => by
            cases List.mem_singleton.mp single
            exact fun same => apart (List.mem_map.mpr ⟨other, within, same⟩)))
      refine (leaving others id (List.subset_cons_self _ _)).bind ?_
        fun error later raised _ _ => ⟨fun _ same => Except.error.inj same ▸ raised.1.1 error rfl, nofun⟩
      intro results last ⟨ended, leftToo⟩
      refine Session.safe_pure fun final passed =>
        ⟨nofun, fun _ _ other within => ?_⟩
      refine Free.later ?_ (passed.2 _ (members other within)).unwritten passed.1.clock
      rcases List.mem_cons.mp within with rfl | within
      · refine (released.2 member (only _ List.mem_cons_self) result rfl).later
          (leftToo.2 _ member fun pair within => ?_) leftToo.1.clock
        obtain ⟨sibling, present, rfl⟩ := List.mem_map.mp within
        exact fun same => apart (List.mem_map.mpr ⟨sibling, present, same.symm⟩)
      · exact ended.2 results rfl other within

end

/-! ## Acquiring -/

/-- A claim that succeeds has put its token in one object; one that fails has
put it in none. -/
def ClaimOutcome (owner key token : String) : Except Error MaintenanceLease → State → Prop
  | .ok lease, later => lease.pair = (key, token) ∧ lease.owner = owner ∧ OnlyOf lease later
  | .error _, later => Unissued token later

section

variable {owner key token : String} {tokens : List String} {pairs : List (String × String)}
  {state : State}

theorem ClaimOutcome.later {outcome : Except Error MaintenanceLease}
    (known : ClaimOutcome owner key token outcome state)
    (unwritten : Unwritten token state after) : ClaimOutcome owner key token outcome after := by
  cases outcome with
  | ok lease =>
      obtain ⟨named, owned, only⟩ := known
      obtain rfl : lease.token = token := congrArg Prod.snd named
      exact ⟨named, owned, only.later unwritten⟩
  | error error => exact Unissued.later known unwritten

theorem claim_safe (ttlSeconds : ℚ) (clock : Int) (attempts : Nat)
    (mine : (key, token) ∈ pairs) (member : token ∈ tokens) (fresh : state.store.Fresh)
    (unissued : Unissued token state) (past : clock ≤ state.clock) :
    (claim owner key token ttlSeconds clock attempts).Safe (terms tokens True pairs)
      (ClaimOutcome owner key token) state := by
  induction attempts generalizing state with
  | zero =>
      exact Session.safe_throw fun later passed =>
        unissued.later (passed.2 _ member).unwritten
  | succ attempts induction =>
      have raises {before : State} (unissued : Unissued token before) (error : Error) :
          (throw error : Calls MaintenanceLease).Safe (terms tokens True pairs)
            (ClaimOutcome owner key token) before :=
        Session.safe_throw fun later passed => unissued.later (passed.2 _ member).unwritten
      refine Session.safe_getBytes ?_ fun later passed =>
        unissued.later (passed.2 _ member).unwritten
      intro earlier before
      have unissued := unissued.later (before.2 _ member).unwritten
      have fresh := before.1.fresh fresh
      have past := past.trans before.1.clock
      cases active : (earlier.object key).bind fun object => activeOwner object.1 clock with
      | some holder => exact raises (unissued.later (unwritten_read key)) _
      | none =>
          have expired (payload : Payload) (etag : ETag)
              (found : earlier.object key = some (.lease payload, etag)) : ¬ payload.Live clock := by
            rw [found] at active
            exact (activeOwner_eq_none_iff (.lease payload) clock).mp active payload rfl
          refine Session.safe_tryPut ?_ ?_ ?_
          · intro last passed admitted
            have forward : Forward earlier last := (Forward.noted earlier _).trans passed.1
            have unchanged := forward.admits_writeCondition fresh admitted
            have idle : ¬ Busy last key := by
              rintro ⟨payload, etag, present, live⟩
              exact expired payload etag (unchanged ▸ present)
                (live.earlier (past.trans forward.clock))
            refine ⟨⟨_, token, rfl, mine, rfl, .inr ⟨trivial, rfl, idle⟩⟩, ?_⟩
            refine Session.safe_pure fun final more => ?_
            refine ClaimOutcome.later ⟨rfl, rfl, ?_⟩ (more.2 _ member).unwritten
            rintro other payload ⟨etag, stored, named⟩
            by_cases same : other = key
            · subst same
              rw [object_put_self] at stored
              cases stored
              exact ⟨rfl, rfl⟩
            · have there := (object_put_other last _ same).symm.trans stored
              have unwritten := (passed.2 _ member).unwritten
              exact absurd ⟨etag, there, named⟩
                ((unissued.later (unwritten_read key)).later unwritten other payload)
          · intro last passed refused
            have unwritten := (unwritten_read key).trans (passed.2 _ member).unwritten
            exact induction ((Forward.noted earlier _).trans passed.1 |>.fresh fresh)
              (unissued.later unwritten) (past.trans passed.1.clock)
          · intro last passed
            exact raises (unissued.later
              ((unwritten_read key).trans (passed.2 _ member).unwritten)) _

theorem acquireSingle_safe (casCapable : Bool) (owner : String) (ttlSeconds : ℚ) (maxAttempts : Int)
    (mine : (key, token) ∈ pairs) (member : token ∈ tokens) (fresh : state.store.Fresh)
    (unissued : Unissued token state) :
    (acquireSingle casCapable owner key token ttlSeconds none maxAttempts).Safe
      (terms tokens True pairs) (ClaimOutcome owner key token) state := by
  unfold acquireSingle
  cases refusal casCapable owner key ttlSeconds with
  | some error =>
      exact Session.safe_throw fun later passed => unissued.later (passed.2 _ member).unwritten
  | none =>
      refine Session.safe_now fun later passed => ?_
      exact claim_safe ttlSeconds later.clock _ mine member (passed.1.fresh fresh)
        (unissued.later (passed.2 _ member).unwritten) le_rfl

structure TokensApart (acquired : List MaintenanceLease) (token : String)
    (rest : List (String × String)) : Prop where
  distinct : (acquired.map (·.token)).Nodup
  next : ∀ lease ∈ acquired, lease.token ≠ token
  others : ∀ pair ∈ rest, pair.2 ≠ token
  across : ∀ lease ∈ acquired, ∀ pair ∈ rest, lease.token ≠ pair.2

theorem TokensApart.of_nodup {acquired : List MaintenanceLease} {rest : List (String × String)}
    (distinct : ((acquired.map MaintenanceLease.pair ++ (key, token) :: rest).map Prod.snd).Nodup) :
    TokensApart acquired token rest := by
  rw [List.map_append, List.map_map, List.map_cons, List.nodup_append] at distinct
  obtain ⟨first, others, disjoint⟩ := distinct
  obtain ⟨next, _⟩ := List.nodup_cons.mp others
  exact {
    distinct := first
    next := fun lease member =>
      disjoint lease.token (List.mem_map_of_mem member) token List.mem_cons_self
    others := fun pair member same => next (List.mem_map.mpr ⟨pair, member, same⟩)
    across := fun lease member pair within =>
      disjoint lease.token (List.mem_map_of_mem member) pair.2
        (List.mem_cons_of_mem _ (List.mem_map_of_mem within)) }

/-- An acquisition returns the leases of all its pairs, or, where no storage call
of its clean-up raised, leaves no key held under any of its tokens. -/
def AcquireOutcome (pairs : List (String × String)) :
    Except Raised (List MaintenanceLease) → State → Prop
  | .ok leases, _ => leases.map MaintenanceLease.pair = pairs
  | .error raised, later => (raised.context ≠ none → raised.error = .storage) ∧
      (raised.context = none → ∀ pair ∈ pairs, Free pair.2 later)

theorem acquireEach_safe (casCapable : Bool) (ttlSeconds : ℚ) (maxAttempts : Int)
    (distinct : (pairs.map Prod.snd).Nodup) (members : ∀ pair ∈ pairs, pair.2 ∈ tokens)
    (acquired : List MaintenanceLease) (remaining : List (String × String))
    (whole : acquired.map MaintenanceLease.pair ++ remaining = pairs) (fresh : state.store.Fresh)
    (only : ∀ lease ∈ acquired, OnlyOf lease state)
    (unissued : ∀ pair ∈ remaining, Unissued pair.2 state) :
    (acquireEach casCapable owner ttlSeconds none maxAttempts acquired remaining).Safe
      (terms tokens True pairs) (AcquireOutcome pairs) state := by
  induction remaining generalizing acquired state with
  | nil => exact Session.safe_pure fun _ _ => by simpa [AcquireOutcome] using whole
  | cons pair rest induction =>
      obtain ⟨key, token⟩ := pair
      have apart := TokensApart.of_nodup (whole ▸ distinct)
      have mine : (key, token) ∈ pairs := whole ▸ by simp
      have within : rest ⊆ pairs := whole ▸ fun pair member => by simp [member]
      have owned : acquired.map MaintenanceLease.pair ⊆ pairs :=
        whole ▸ List.subset_append_left _ _
      have acquiredMembers (lease : MaintenanceLease) (member : lease ∈ acquired) :
          lease.token ∈ tokens := members _ (owned (List.mem_map_of_mem member))
      have claimed := acquireSingle_safe casCapable owner ttlSeconds maxAttempts
        (List.mem_singleton_self (key, token)) (members _ mine) fresh
        (unissued _ List.mem_cons_self)
      refine Task.Safe.bind (leaving claimed id
        (List.cons_subset.mpr ⟨mine, List.nil_subset _⟩)) ?_
      intro outcome middle ⟨known, leaves⟩
      have elsewhere {other : String} (member : other ∈ tokens) (different : other ≠ token) :
          Unwritten other state middle :=
        leaves.2 other member fun pair single => by
          cases List.mem_singleton.mp single
          exact different
      have onlyNow (lease : MaintenanceLease) (member : lease ∈ acquired) : OnlyOf lease middle :=
        (only lease member).later
          (elsewhere (acquiredMembers lease member) (apart.next lease member))
      have unissuedNow (pair : String × String) (member : pair ∈ rest) : Unissued pair.2 middle :=
        (unissued pair (List.mem_cons_of_mem _ member)).later
          (elsewhere (members _ (within member)) (apart.others pair member))
      have freshNow := leaves.1.fresh fresh
      cases outcome with
      | ok lease =>
          refine induction (acquired ++ [lease]) ?_ freshNow ?_ unissuedNow
          · simp [← whole, known.1]
          · intro other member
            rcases List.mem_append.mp member with earlier | new
            · exact onlyNow other earlier
            · cases List.mem_singleton.mp new
              exact known.2.2
      | error error =>
          have cleaned := releases_safe tokens acquired.reverse freshNow
            (by rw [List.map_reverse]; exact (List.reverse_perm _).nodup_iff.mpr apart.distinct)
            (fun lease member => acquiredMembers lease (List.mem_reverse.mp member))
            (fun lease member => onlyNow lease (List.mem_reverse.mp member))
          refine Task.Safe.bind (leaving cleaned False.elim ?_) ?_
          · rw [List.map_reverse]
            exact fun pair member => owned (List.mem_reverse.mp member)
          · intro outcome last ⟨released, left⟩
            have untouched {other : String} (member : other ∈ tokens)
                (different : ∀ lease ∈ acquired, lease.token ≠ other) :
                Unwritten other middle last :=
              left.2 other member fun pair present => by
                obtain ⟨lease, among, rfl⟩ := List.mem_map.mp present
                exact (different lease (List.mem_reverse.mp among)).symm
            cases outcome with
            | error cleanup =>
                exact fun _ _ => ⟨fun _ => released.1 cleanup rfl, nofun⟩
            | ok leases =>
                refine fun final passed => ⟨fun raised => absurd rfl raised, fun _ pair member => ?_⟩
                refine Free.later ?_ (passed.2 _ (members pair member)).unwritten passed.1.clock
                rw [← whole] at member
                rcases List.mem_append.mp member with among | remaining
                · obtain ⟨lease, present, rfl⟩ := List.mem_map.mp among
                  exact released.2 leases rfl lease (List.mem_reverse.mpr present)
                · rcases List.mem_cons.mp remaining with rfl | present
                  · exact (Unissued.later known (untouched (members _ mine) apart.next)).free
                  · exact ((unissuedNow pair present).later
                      (untouched (members _ (within present)) fun lease among =>
                        apart.across lease among pair present)).free

end

/-! ## The calls -/

namespace Call

def Acquires : Call → Prop
  | .acquire .. => True
  | _ => False

def pairs : Call → List (String × String)
  | .acquire _ _ keys _ _ => keys.pairs
  | .renew handle => handle.leases.map MaintenanceLease.pair
  | .assertHeld handle => handle.leases.map MaintenanceLease.pair
  | .release handle => handle.leases.map MaintenanceLease.pair

def tokens : Call → List String
  | .acquire _ _ keys _ _ => keys.pairs.map Prod.snd
  | _ => []

def terms (call : Call) : Terms String Data Int :=
  MaintenanceLeases.terms call.tokens call.Acquires call.pairs

/-- What the outcome of a call says about the state it was started in and the
state it ends in. -/
def Promises : Call → State → Except Raised Handle → State → Prop
  | .acquire _ _ keys _ _, _, .ok handle, _ =>
      handle.leases.map MaintenanceLease.pair = keys.pairs
  | .acquire _ _ keys _ _, _, .error raised, later =>
      (raised.context ≠ none → raised.error = .storage) ∧
        (raised.context = none → ∀ pair ∈ keys.pairs, Free pair.2 later)
  | .assertHeld handle, start, .ok _, later => ∀ lease ∈ handle.leases, Seen lease start later
  | _, _, _, _ => True

end Call

section

variable {state : State} {lease : MaintenanceLease}

theorem Seen.later {before : State}
    (seen : Seen lease first before) (forward : Forward before after) : Seen lease first after := by
  obtain ⟨older, grown, payload, etag, clock, member, owns⟩ := seen
  obtain ⟨newer, added⟩ := forward.log
  exact ⟨newer ++ older, by rw [added, grown, List.append_assoc], payload, etag, clock,
    List.mem_append_right _ member, owns⟩

theorem Seen.since {middle later : State}
    (seen : Seen lease middle later) (forward : Forward first middle) : Seen lease first later := by
  obtain ⟨newer, grown, payload, etag, clock, member, owns⟩ := seen
  obtain ⟨older, added⟩ := forward.log
  exact ⟨newer ++ older, by rw [grown, added, List.append_assoc], payload, etag, clock,
    List.mem_append_left _ member, owns⟩

theorem plainly_safe {α : Type} {terms : Terms String Data Int} {session : Calls α}
    {promise : Except Raised α → State → Prop} (safe : session.Safe terms
      (fun outcome => promise (outcome.mapError fun error => ⟨error, none⟩)) state) :
    (plainly session).Safe terms promise state :=
  Task.Safe.map safe

theorem acquire_safe (casCapable : Bool) (owner : String) (keys : Keys) (ttlSeconds : ℚ)
    (maxAttempts : Int) (fresh : state.store.Fresh) (distinct : (keys.pairs.map Prod.snd).Nodup)
    (unissued : ∀ pair ∈ keys.pairs, Unissued pair.2 state) :
    (acquire casCapable owner ttlSeconds none maxAttempts keys).Safe
      (terms (keys.pairs.map Prod.snd) True keys.pairs)
      ((Call.acquire casCapable owner keys ttlSeconds maxAttempts).Promises state) state := by
  cases keys with
  | single key token =>
      refine plainly_safe (Session.Safe.map ?_)
      refine (acquireSingle_safe casCapable owner ttlSeconds maxAttempts
        (List.mem_singleton_self (key, token)) (List.mem_singleton_self token) fresh
        (unissued _ (List.mem_singleton_self _))).weaken ?_
      intro outcome later known
      cases outcome with
      | ok lease => exact congrArg (fun pair => [pair]) known.1
      | error error =>
          refine ⟨fun raised => absurd rfl raised, fun _ pair member => ?_⟩
          cases List.mem_singleton.mp member
          exact Unissued.free known
  | sequence pairs =>
      cases pairs with
      | nil => exact Session.safe_throw fun _ _ =>
            ⟨fun raised => absurd rfl raised, fun _ _ member => by cases member⟩
      | cons pair rest =>
          refine Session.Safe.map ((acquireEach_safe casCapable ttlSeconds maxAttempts distinct
            (fun pair member => List.mem_map_of_mem member) [] _ rfl fresh
            (fun lease member => by cases member) unissued).weaken ?_)
          intro outcome later known
          cases outcome with
          | ok leases => exact known
          | error raised => exact known

section

variable {call : Call} {act : MaintenanceLease → Calls MaintenanceLease}
  (each : MaintenanceLease → State → Prop)

theorem single_safe
    (stable : ∀ {lease before after}, each lease before → Forward before after → each lease after)
    (one : (act lease).Safe call.terms
      (fun outcome later => ∀ result, outcome = .ok result → each lease later) state) :
    (act lease >>= fun done => pure (.single done)).Safe call.terms
      (fun outcome later => ∀ result : Handle, outcome = .ok result →
        ∀ owned ∈ (Handle.single lease).leases, each owned later) state := by
  refine one.bind ?_ fun _ _ _ _ _ _ impossible => by cases impossible
  intro result later known
  refine Session.safe_pure fun last passed _ _ other member => ?_
  obtain rfl := List.mem_singleton.mp member
  exact stable (known result rfl) passed.1

theorem composite_safe {leases order : List MaintenanceLease}
    (arranged : List MaintenanceLease → List MaintenanceLease) (all : leases ⊆ order)
    (stable : ∀ {lease before after}, each lease before → Forward before after → each lease after)
    (one : ∀ lease ∈ order, ∀ middle, Forward state middle →
      (act lease).Safe call.terms
        (fun outcome later => ∀ result, outcome = .ok result → each lease later) middle) :
    (inTurn act order >>= fun done => pure (.composite (arranged done))).Safe call.terms
      (fun outcome later => ∀ result : Handle, outcome = .ok result →
        ∀ owned ∈ (Handle.composite leases).leases, each owned later) state := by
  refine (inTurn_safe each order stable one).bind ?_ fun _ _ _ _ _ _ impossible => by cases impossible
  intro results later known
  refine Session.safe_pure fun last passed _ _ other member => ?_
  exact stable (known results rfl other (all member)) passed.1

end

theorem renewal_safe (handle : Handle) (fresh : state.store.Fresh) :
    handle.renew.Safe (Call.renew handle).terms
      (fun outcome _ => ∀ result, outcome = .ok result → ∀ lease ∈ handle.leases, True)
      state := by
  have one (lease : MaintenanceLease) (member : lease ∈ handle.leases) (middle : State)
      (forward : Forward state middle) : lease.renew.Safe (Call.renew handle).terms
        (fun outcome later => ∀ result, outcome = .ok result → True) middle := by
    have mine : lease.pair ∈ (Call.renew handle).pairs := List.mem_map_of_mem member
    exact (renew_safe lease mine (forward.fresh fresh)).weaken fun _ _ _ _ _ => trivial
  cases handle with
  | single lease =>
      exact single_safe (fun _ _ => True) (fun _ _ => trivial) (one lease (List.mem_singleton_self _) _ (.refl _))
  | composite leases => exact composite_safe (fun _ _ => True) id (fun _ => id) (fun _ _ => trivial) one

theorem assertion_safe (handle : Handle) :
    handle.assertHeld.Safe (Call.assertHeld handle).terms
      (fun outcome later => ∀ result, outcome = .ok result →
        ∀ lease ∈ handle.leases, Seen lease state later) state := by
  have one (lease : MaintenanceLease) (middle : State) (forward : Forward state middle) :
      lease.assertHeld.Safe (Call.assertHeld handle).terms
        (fun outcome later => ∀ result, outcome = .ok result → Seen lease state later) middle :=
    (assertHeld_safe lease).weaken fun _ _ seen result succeeded =>
      (seen result succeeded).since forward
  cases handle with
  | single lease => exact single_safe (Seen · state) Seen.later (one lease _ (.refl _))
  | composite leases =>
      exact composite_safe (Seen · state) id (fun _ => id) Seen.later fun lease _ => one lease

theorem releasing_safe (handle : Handle) (fresh : state.store.Fresh) :
    handle.release.Safe (Call.release handle).terms
      (fun outcome _ => ∀ result, outcome = .ok result → ∀ lease ∈ handle.leases, True)
      state := by
  have one (lease : MaintenanceLease) (member : lease ∈ handle.leases) (middle : State)
      (forward : Forward state middle) : lease.release.Safe (Call.release handle).terms
        (fun outcome later => ∀ result, outcome = .ok result → True) middle := by
    have mine : lease.pair ∈ (Call.release handle).pairs := List.mem_map_of_mem member
    exact (release_safe lease _ _ mine (forward.fresh fresh)).weaken fun _ _ _ _ _ => trivial
  cases handle with
  | single lease =>
      exact single_safe (fun _ _ => True) (fun _ _ => trivial) (one lease (List.mem_singleton_self _) _ (.refl _))
  | composite leases =>
      exact composite_safe (fun _ _ => True) List.reverse (fun _ member => List.mem_reverse.mpr member) (fun _ _ => trivial)
        fun lease member => one lease (List.mem_reverse.mp member)

theorem call_safe (call : Call) (fresh : state.store.Fresh) (distinct : call.tokens.Nodup)
    (unissued : ∀ token ∈ call.tokens, Unissued token state) :
    call.session.Safe call.terms (call.Promises state) state := by
  cases call with
  | acquire casCapable owner keys ttlSeconds maxAttempts =>
      exact acquire_safe casCapable owner keys ttlSeconds maxAttempts fresh distinct
        fun pair member => unissued pair.2 (List.mem_map_of_mem member)
  | renew handle =>
      exact plainly_safe ((renewal_safe handle fresh).weaken fun _ _ _ => trivial)
  | assertHeld handle =>
      refine plainly_safe ((assertion_safe handle).weaken fun outcome later seen => ?_)
      cases outcome with
      | ok result => exact seen result rfl
      | error error => trivial
  | release handle =>
      exact plainly_safe ((releasing_safe handle fresh).weaken fun _ _ _ => trivial)

end

end MaintenanceLeases

end CityPods.Ops
