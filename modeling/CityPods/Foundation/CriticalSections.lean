import CityPods.Foundation.LockedRecords

/-! # Critical sections

What is done under a lock can be checked as though the call were alone: the rule
that carries such a check over to any interleaving, and what calls that hold the
lock and calls that do without it must respect for their bargains to fit.
-/

namespace CityPods.Foundation

namespace LockedRecords

/-- What every change of the records respects. -/
structure Duty (K V : Type) where
  sane : Store K V → Prop
  moves : Store K V → Store K V → Prop
  honest : Deletion K V → Prop
  /-- The operations that may fail. -/
  fallible : Op K V → Prop
  stays : ∀ store, moves store store

variable {K V : Type}

structure Keeps (duty : Duty K V) (state after : State K V) : Prop where
  sane : duty.sane state.store → duty.sane after.store
  moves : duty.moves state.store after.store
  honest : ∀ deletion ∈ after.deletions, deletion ∈ state.deletions ∨ duty.honest deletion

theorem Keeps.refl (duty : Duty K V) (state : State K V) : Keeps duty state state :=
  ⟨id, duty.stays _, fun _ => .inl⟩

variable [DecidableEq K]

/-! ## Alone -/

/-- Alone with the records, the task respects the duty in every change, and ends
as promised. -/
def Alone {α : Type} (duty : Duty K V) (promise : α → Store K V → Prop) :
    Task (interface K V) α → Store K V → Prop
  | .done result, store => promise result store
  | .perform .now next, store => ∀ clock : Int, Alone duty promise (next clock) store
  | .perform (.acquire _ _ _) _, _ => False
  | .perform (.release _ _) _, _ => False
  | .perform (.get key) next, store =>
      Alone duty promise (next (.ok (store.object key))) store ∧
        Alone duty promise (next (.error ())) store
  | .perform (.put key value) next, store =>
      (duty.sane store → duty.sane (store.put key value)) ∧
        duty.moves store (store.put key value) ∧
        Alone duty promise (next (.ok ())) (store.put key value) ∧
        (duty.fallible (.put key value) → Alone duty promise (next (.error ())) store)
  | .perform (.delete key judged) next, store =>
      (duty.sane store → duty.sane (store.delete key)) ∧
        duty.moves store (store.delete key) ∧ duty.honest ⟨key, judged, store.object key⟩ ∧
        Alone duty promise (next (.ok ())) (store.delete key) ∧
        (duty.fallible (.delete key judged) → Alone duty promise (next (.error ())) store)

section

variable {α β ε : Type} {duty : Duty K V} {promise : α → Store K V → Prop}
  {promised : β → Store K V → Prop} {store : Store K V} {task : Task (interface K V) α}

theorem Alone.bind {rest : α → Task (interface K V) β} (alone : Alone duty promise task store)
    (continued : ∀ result later, promise result later → Alone duty promised (rest result) later) :
    Alone duty promised (task.bind rest) store := by
  induction task generalizing store with
  | done result => exact continued result store alone
  | perform op next induction =>
      cases op with
      | now => exact fun clock => induction clock (alone clock)
      | acquire => exact alone
      | release => exact alone
      | get key => exact ⟨induction _ alone.1, induction _ alone.2⟩
      | put key value =>
          exact ⟨alone.1, alone.2.1, induction _ alone.2.2.1, fun fallible =>
            induction _ (alone.2.2.2 fallible)⟩
      | delete key judged =>
          exact ⟨alone.1, alone.2.1, alone.2.2.1, induction _ alone.2.2.2.1, fun fallible =>
            induction _ (alone.2.2.2.2 fallible)⟩

theorem Alone.weaken {weaker : α → Store K V → Prop} (alone : Alone duty promise task store)
    (implies : ∀ result later, promise result later → weaker result later) :
    Alone duty weaker task store := by
  rw [← task.bind_right]
  exact alone.bind implies

variable {raised : ε} {promise : Except ε α → Store K V → Prop}
  {promised : Except ε β → Store K V → Prop}

theorem alone_bind {session : Session K V ε α} {rest : α → Session K V ε β}
    (alone : Alone duty promise session.run store)
    (continued : ∀ result later, promise (.ok result) later →
      Alone duty promised (rest result).run later)
    (failed : ∀ error later, promise (.error error) later → promised (.error error) later) :
    Alone duty promised (session >>= rest).run store := by
  refine Alone.bind alone ?_
  intro outcome later kept
  cases outcome with
  | ok result => exact continued result later kept
  | error error => exact failed error later kept

theorem alone_now {rest : Int → Session K V ε β}
    (continued : ∀ clock, Alone duty promised (rest clock).run store) :
    Alone duty promised (Session.now >>= rest).run store :=
  continued

variable {key : K} {rest : Unit → Session K V ε β}

theorem alone_put {value : V} (sane : duty.sane store → duty.sane (store.put key value))
    (moves : duty.moves store (store.put key value))
    (written : Alone duty promised (rest ()).run (store.put key value))
    (failed : promised (.error raised) store) :
    Alone duty promised (Session.put raised key value >>= rest).run store :=
  ⟨sane, moves, written, fun _ => failed⟩

theorem alone_delete {judged : Option (V × ETag)}
    (sane : duty.sane store → duty.sane (store.delete key))
    (moves : duty.moves store (store.delete key))
    (honest : duty.honest ⟨key, judged, store.object key⟩)
    (deleted : Alone duty promised (rest ()).run (store.delete key))
    (failed : promised (.error raised) store) :
    Alone duty promised (Session.delete raised key judged >>= rest).run store :=
  ⟨sane, moves, honest, deleted, fun _ => failed⟩

end

/-! ## Holding the lock -/

/-- Nothing is done to the records while one of the tokens holds the lock. -/
def Undisturbed (lock : String) (tokens : List String) (state after : State K V) : Prop :=
  ∀ token ∈ tokens, state.Holds lock token →
    after.locks lock = state.locks lock ∧ after.store = state.store

omit [DecidableEq K] in
theorem Undisturbed.trans {lock : String} {tokens : List String} {first second third : State K V}
    (earlier : Undisturbed lock tokens first second)
    (later : Undisturbed lock tokens second third) : Undisturbed lock tokens first third := by
  intro token member holds
  have before := earlier token member holds
  have stillHolds : second.Holds lock token := by
    obtain ⟨expiry, held⟩ := holds
    exact ⟨expiry, before.1.trans held⟩
  have after := later token member stillHolds
  exact ⟨after.1.trans before.1, after.2.trans before.2⟩

/-- What a call with these tokens does to the lock and the records. -/
structure Guarded (lock : String) (tokens : List String) (duty : Duty K V)
    (state after : State K V) : Prop where
  keeps : Keeps duty state after
  store : after.store = state.store ∨ ∃ token ∈ tokens, state.Holds lock token
  locks : after.locks lock = state.locks lock ∨ state.isOpen lock = true ∨
    ∃ token ∈ tokens, state.Holds lock token

def lockedBargain (lock : String) (tokens : List String) (duty : Duty K V) :
    Bargain (world K V) where
  rely _ := Undisturbed lock tokens
  assumes op _ choice := choice = .fails → duty.fallible op
  guarantee := Guarded lock tokens duty
  rely_refl _ _ _ _ _ := ⟨rfl, rfl⟩
  rely_trans := Undisturbed.trans

section

variable {α ε : Type} {lock token : String} {tokens : List String} {duty : Duty K V}
  {state : State K V}

omit [DecidableEq K] in
theorem Guarded.refl (lock : String) (tokens : List String) (duty : Duty K V)
    (state : State K V) : Guarded lock tokens duty state state :=
  ⟨.refl duty state, .inl rfl, .inl rfl⟩

/-- A task that is right alone is right in the critical section. -/
theorem Alone.safe {promise : α → Store K V → Prop} {task : Task (interface K V) α}
    (alone : Alone duty promise task state.store) (member : token ∈ tokens)
    (holds : state.Holds lock token) :
    task.Safe (world K V) (lockedBargain lock tokens duty)
      (fun result later => later.Holds lock token ∧ promise result later.store) state := by
  induction task generalizing state with
  | done result =>
      intro later passed
      obtain ⟨expiry, held⟩ := holds
      obtain ⟨locks, store⟩ := passed token member ⟨expiry, held⟩
      exact ⟨⟨expiry, locks.trans held⟩, store ▸ alone⟩
  | perform op next induction =>
      intro later passed choice reply after assumed answered
      obtain ⟨expiry, held⟩ := holds
      obtain ⟨locks, store⟩ := passed token member ⟨expiry, held⟩
      have holds : later.Holds lock token := ⟨expiry, locks.trans held⟩
      have mine : ∃ token ∈ tokens, later.Holds lock token := ⟨token, member, holds⟩
      rw [← store] at alone
      cases op with
      | now =>
          cases choice <;> cases answered
          exact ⟨.refl lock tokens duty _, induction _ (alone _) holds⟩
      | acquire => exact alone.elim
      | release => exact alone.elim
      | get key =>
          cases choice <;> cases answered
          · exact ⟨.refl lock tokens duty _, induction _ alone.1 holds⟩
          · exact ⟨.refl lock tokens duty _, induction _ alone.2 holds⟩
      | put key value =>
          obtain ⟨sane, moves, written, failed⟩ := alone
          cases choice with
          | works =>
              cases answered
              have keeps : Keeps duty later { later with store := later.store.put key value } :=
                ⟨sane, moves, fun _ => .inl⟩
              exact ⟨⟨keeps, .inr mine, .inl rfl⟩, induction _ written holds⟩
          | fails =>
              cases answered
              exact ⟨.refl lock tokens duty _, induction _ (failed (assumed rfl)) holds⟩
          | tick => cases answered
      | delete key judged =>
          obtain ⟨sane, moves, honest, deleted, failed⟩ := alone
          cases choice with
          | works =>
              cases answered
              refine ⟨⟨⟨sane, moves, ?_⟩, .inr mine, .inl rfl⟩, induction _ deleted holds⟩
              intro deletion within
              rcases List.mem_cons.mp within with rfl | earlier
              · exact .inr honest
              · exact .inl earlier
          | fails =>
              cases answered
              exact ⟨.refl lock tokens duty _, induction _ (failed (assumed rfl)) holds⟩
          | tick => cases answered

variable {body : Session K V ε α}

theorem underLock_safe (raised : ε)
    (alone : ∀ store, Alone duty (fun _ _ => True) body.run store) (member : token ∈ tokens)
    (holds : state.Holds lock token) :
    (Session.underLock raised lock token body).Safe (world K V) (lockedBargain lock tokens duty)
      (fun _ _ => True) state := by
  refine Raising.Safe.attempt ((alone state.store).safe member holds) ?_
  intro outcome ended held
  refine Raising.safe_perform fun later passed choice reply after _ answered => ?_
  obtain ⟨expiry, mine⟩ := held.1
  have still : later.Holds lock token :=
    ⟨expiry, (passed token member ⟨expiry, mine⟩).1.trans mine⟩
  refine ⟨?_, fun _ _ => ?_, fun _ _ _ _ => trivial⟩
  · cases choice with
    | works =>
        simp only [world, answer] at answered
        split at answered <;> cases answered
        · exact ⟨⟨id, duty.stays _, fun _ => .inl⟩, .inl rfl, .inr (.inr ⟨token, member, still⟩)⟩
        · exact .refl lock tokens duty _
    | fails =>
        cases answered
        exact .refl lock tokens duty _
    | tick => cases answered
  · cases outcome with
    | ok result => exact Raising.safe_pure fun _ _ => trivial
    | error error => exact Raising.safe_throw fun _ _ => trivial

/-- A body that is right alone is right under the lock, whenever the lock is got. -/
theorem acquireUntil_safe (raised busy : ε) (ttl deadline : Int)
    (alone : ∀ store, Alone duty (fun _ _ => True) body.run store) {draws : List String}
    (members : draws ⊆ tokens) (state : State K V) :
    (Session.acquireUntil raised busy lock ttl deadline body draws).Safe (world K V)
      (lockedBargain lock tokens duty) (fun _ _ => True) state := by
  induction draws generalizing state with
  | nil => exact Raising.safe_throw fun _ _ => trivial
  | cons token rest induction =>
      have member : token ∈ tokens := members List.mem_cons_self
      have again (state : State K V) : (do
          let clock ← Session.now
          if deadline ≤ clock then throw busy
          else Session.acquireUntil raised busy lock ttl deadline body rest :
            Session K V ε α).Safe (world K V) (lockedBargain lock tokens duty)
              (fun _ _ => True) state := by
        refine Raising.safe_perform fun later _ choice reply after _ answered => ?_
        refine ⟨?_, fun clock _ => ?_, fun _ _ _ _ => trivial⟩
        · cases choice <;> cases answered
          exact .refl lock tokens duty _
        · by_cases late : deadline ≤ clock
          · rw [if_pos late]
            exact Raising.safe_throw fun _ _ => trivial
          · rw [if_neg late]
            exact induction (fun _ within => members (List.mem_cons_of_mem _ within)) after
      refine Raising.safe_perform fun later _ choice reply after _ answered => ?_
      cases choice with
      | works =>
          simp only [world, answer] at answered
          by_cases isOpen : later.isOpen lock = true
          · rw [if_pos isOpen] at answered
            cases answered
            refine ⟨⟨⟨id, duty.stays _, fun _ => .inl⟩, .inl rfl, .inr (.inl isOpen)⟩, ?_,
              fun _ _ _ _ => trivial⟩
            rintro result same
            cases same
            exact underLock_safe raised alone member ⟨_, Function.update_self ..⟩
          · rw [if_neg isOpen] at answered
            cases answered
            refine ⟨.refl lock tokens duty _, ?_, fun _ _ _ _ => trivial⟩
            rintro result same
            cases same
            exact again _
      | fails =>
          cases answered
          exact ⟨.refl lock tokens duty _, (by rintro _ ⟨⟩), fun _ _ _ _ => trivial⟩
      | tick => cases answered

end

/-! ## Without the lock -/

/-- Records can only have gone. -/
def Shrinks (store after : Store K V) : Prop :=
  ∀ key, after.object key = none ∨ after.object key = store.object key

omit [DecidableEq K] in
theorem Shrinks.trans {first second third : Store K V} (earlier : Shrinks first second)
    (later : Shrinks second third) : Shrinks first third := by
  intro key
  rcases later key with gone | same
  · exact .inl gone
  · rw [same]
    exact earlier key

def awaitsChange : Option (Op K V) → Bool
  | some op => op.changes
  | none => false

/-- A call that deletes without the lock: while it is about to change a record,
it counts on nobody else writing any. -/
def unlockedBargain (duty : Duty K V) : Bargain (world K V) where
  rely awaited state after := awaitsChange awaited = true → Shrinks state.store after.store
  assumes op _ choice := choice = .fails → duty.fallible op
  guarantee state after :=
    Keeps duty state after ∧ after.locks = state.locks ∧ Shrinks state.store after.store
  rely_refl _ _ _ _ := .inr rfl
  rely_trans earlier later changes := (earlier changes).trans (later changes)

/-- How a call comes to the records. -/
inductive Access
  | locked (tokens : List String)
  | unlocked

namespace Access

def tokens : Access → List String
  | locked tokens => tokens
  | unlocked => []

def bargain (lock : String) (duty : Duty K V) : Access → Bargain (world K V)
  | locked tokens => lockedBargain lock tokens duty
  | unlocked => unlockedBargain duty

variable {lock : String} {duty : Duty K V} {access : Access} {state after : State K V}

theorem keeps
    (guaranteed : (access.bargain lock duty).guarantee state after) : Keeps duty state after := by
  cases access with
  | locked tokens => exact guaranteed.keeps
  | unlocked => exact guaranteed.1

/-- The step of one call is what another counts on, if their tokens differ, no
holder has outlived the lock, and an unlocked call does not change a record
while the lock is held, nor a locked one while an unlocked is about to. -/
theorem fits {other : Access}
    {op : Op K V} {choice : Choice} {reply : (interface K V).Reply op} {awaited : Option (Op K V)}
    (guaranteed : (access.bargain lock duty).guarantee state after)
    (answered : answer state op choice = some (reply, after))
    (distinct : ∀ token ∈ access.tokens, token ∉ other.tokens)
    (inTime : ∀ token ∈ other.tokens, state.Holds lock token → state.isOpen lock = false)
    (calm : access = .unlocked → op.changes = true →
      ∀ token ∈ other.tokens, ¬ state.Holds lock token)
    (calmToo : other = .unlocked → awaitsChange awaited = true → op.changes = true →
      access = .unlocked) :
    (other.bargain lock duty).rely awaited state after := by
  have only (token sibling : String) (first : state.Holds lock token)
      (second : state.Holds lock sibling) : token = sibling := by
    obtain ⟨_, held⟩ := first
    obtain ⟨_, also⟩ := second
    exact congrArg Prod.fst (Option.some.inj (held.symm.trans also))
  cases other with
  | locked theirs =>
      intro token member holds
      cases access with
      | locked mine =>
          have apart : ¬ ∃ sibling ∈ mine, state.Holds lock sibling := by
            rintro ⟨sibling, owned, also⟩
            exact distinct sibling owned (only token sibling holds also ▸ member)
          refine ⟨?_, guaranteed.store.resolve_right apart⟩
          refine guaranteed.locks.resolve_right (not_or.mpr ⟨?_, apart⟩)
          rw [inTime token member holds]
          exact Bool.false_ne_true
      | unlocked =>
          refine ⟨congrFun guaranteed.2.1 lock, ?_⟩
          cases changes : op.changes with
          | true => exact absurd holds (calm rfl changes token member)
          | false => exact answer_store answered changes
  | unlocked =>
      intro awaits
      cases access with
      | locked mine =>
          cases changes : op.changes with
          | true => cases calmToo rfl awaits changes
          | false =>
              have same := answer_store answered changes
              exact fun key => .inr (congrArg (Store.object · key) same)
      | unlocked => exact guaranteed.2.2

end Access

end LockedRecords

end CityPods.Foundation
