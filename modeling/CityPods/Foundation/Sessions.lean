import CityPods.Foundation.Objects
import CityPods.Foundation.Raising

/-! # Sessions with object storage

Code that talks to object storage and may raise, and the rules by which it is
followed one operation at a time beside other sessions.
-/

namespace CityPods.Foundation

namespace Objects

/-- Code over the storage that returns a value or raises an error. -/
abbrev Session (K V Time ε α : Type) : Type := Raising (interface K V Time) ε α

namespace Session

variable {K V Time ε α β : Type}

def now : Session K V Time ε Time := Raising.perform .now .ok

def getBytes (raised : Failure → ε) (key : K) : Session K V Time ε (Option (V × ETag)) :=
  Raising.perform (.get key) (Except.mapError raised)

def putBytes (raised : Failure → ε) (key : K) (value : V) (condition : Condition) :
    Session K V Time ε ETag :=
  Raising.perform (.put key value condition) (Except.mapError raised)

end Session

/-- What a session counts on of the others, and the writes it makes itself. -/
structure Terms (K V Time : Type) where
  rely : State K V Time → State K V Time → Prop
  rely_refl : ∀ state, rely state state
  rely_trans : ∀ {first second third}, rely first second → rely second third → rely first third
  permits : State K V Time → K → V → Prop

variable {K V Time ε α β : Type} [DecidableEq K] [LinearOrder Time]

def Terms.bargain (terms : Terms K V Time) : Bargain (world K V Time) where
  rely _ := terms.rely
  assumes _ _ _ := True
  guarantee state after := Touches (terms.permits state) state after
  rely_refl _ := terms.rely_refl
  rely_trans := terms.rely_trans

namespace Session

/-- Whatever the others do, the session writes only what its terms permit, and
its outcome keeps the promise. -/
def Safe (terms : Terms K V Time) (promise : Except ε α → State K V Time → Prop)
    (session : Session K V Time ε α) (state : State K V Time) : Prop :=
  Raising.Safe (world K V Time) terms.bargain promise session state

variable {terms : Terms K V Time} {promise : Except ε α → State K V Time → Prop}
  {state : State K V Time} {session : Session K V Time ε α}

theorem Safe.weaken {weaker : Except ε α → State K V Time → Prop}
    (safe : session.Safe terms promise state)
    (implies : ∀ outcome later, promise outcome later → weaker outcome later) :
    session.Safe terms weaker state :=
  Raising.Safe.weaken safe implies

theorem Safe.map {function : α → β} {promise : Except ε β → State K V Time → Prop}
    (safe : session.Safe terms (fun outcome => promise (outcome.map function)) state) :
    (function <$> session).Safe terms promise state :=
  Raising.Safe.map safe

theorem Safe.frame {relation : State K V Time → State K V Time → Prop}
    (safe : session.Safe terms promise state)
    (trans : ∀ {first second third}, relation first second → relation second third →
      relation first third)
    (relied : ∀ {before after}, terms.rely before after → relation before after)
    (touched : ∀ {before after}, Touches (terms.permits before) before after →
      relation before after) :
    session.Safe terms (fun outcome later => promise outcome later ∧ relation state later) state :=
  Task.Safe.frame safe trans relied touched

theorem Safe.permit {other : Terms K V Time} (safe : session.Safe terms promise state)
    (relied : ∀ {before after}, other.rely before after → terms.rely before after)
    (permitted : ∀ {before key value}, terms.permits before key value →
      other.permits before key value) : session.Safe other promise state := by
  refine Task.Safe.guarantee_less safe relied id ?_
  intro before after touches
  cases touches with
  | same => exact .same
  | read key => exact .read key
  | put key value allowed => exact .put key value (permitted allowed)

theorem safe_pure {result : α} (promised : ∀ later, terms.rely state later →
    promise (.ok result) later) : (pure result : Session K V Time ε α).Safe terms promise state :=
  promised

theorem safe_throw {error : ε} (promised : ∀ later, terms.rely state later →
    promise (.error error) later) :
    (throw error : Session K V Time ε α).Safe terms promise state :=
  promised

variable {promised : Except ε β → State K V Time → Prop}

theorem Safe.bind {rest : α → Session K V Time ε β} (safe : session.Safe terms promise state)
    (continued : ∀ result later, promise (.ok result) later →
      (rest result).Safe terms promised later)
    (raised : ∀ error later, promise (.error error) later →
      ∀ last, terms.rely later last → promised (.error error) last) :
    (session >>= rest).Safe terms promised state :=
  Raising.Safe.bind safe continued raised

theorem Safe.attempt {rest : Except ε α → Session K V Time ε β}
    (safe : session.Safe terms promise state) (continued : ∀ outcome later, promise outcome later →
      (rest outcome).Safe terms promised later) :
    (Raising.attempt session >>= rest : Session K V Time ε β).Safe terms promised state :=
  Raising.Safe.attempt safe continued

theorem safe_now {rest : Time → Session K V Time ε β} {promise : Except ε β → State K V Time → Prop}
    (continued : ∀ later, terms.rely state later → (rest later.clock).Safe terms promise later) :
    (now >>= rest).Safe terms promise state := by
  intro later passed choice reply after _ answered
  obtain ⟨rfl, rfl⟩ := answer_now answered
  exact ⟨.same, continued _ passed⟩

variable {raised : Failure → ε} {key : K}

theorem safe_getBytes {rest : Option (V × ETag) → Session K V Time ε β}
    {promise : Except ε β → State K V Time → Prop} (found : ∀ later, terms.rely state later →
      (rest (later.object key)).Safe terms promise (later.read key))
    (failed : ∀ later, terms.rely state later → promise (.error (raised .failed)) later) :
    (getBytes raised key >>= rest).Safe terms promise state := by
  intro later passed choice reply after _ answered
  rcases answer_get answered with ⟨rfl, rfl⟩ | ⟨rfl, rfl⟩
  · exact ⟨.read key, found later passed⟩
  · exact ⟨.same, fun last more => failed last (terms.rely_trans passed more)⟩

variable {value : V} {condition : Condition}

theorem safe_tryPut
    {rest : Except ε ETag → Session K V Time ε β} {promise : Except ε β → State K V Time → Prop}
    (written : ∀ later, terms.rely state later → later.store.admits key condition = true →
      terms.permits later key value ∧
        (rest (.ok later.store.nextETag)).Safe terms promise (later.put key value))
    (conflict : ∀ later, terms.rely state later → later.store.admits key condition = false →
      (rest (.error (raised .conflict))).Safe terms promise later)
    (failed : ∀ later, terms.rely state later →
      (rest (.error (raised .failed))).Safe terms promise later) :
    (Raising.attempt (putBytes raised key value condition) >>= rest :
      Session K V Time ε β).Safe terms promise state := by
  intro later passed choice reply after _ answered
  rcases answer_put answered with ⟨admitted, rfl, rfl⟩ | ⟨refused, rfl, rfl⟩ | ⟨rfl, rfl⟩
  · exact ⟨.put key value (written later passed admitted).1, (written later passed admitted).2⟩
  · exact ⟨.same, conflict _ passed refused⟩
  · exact ⟨.same, failed _ passed⟩

theorem safe_putBytes
    {rest : ETag → Session K V Time ε β} {promise : Except ε β → State K V Time → Prop}
    (written : ∀ later, terms.rely state later → later.store.admits key condition = true →
      terms.permits later key value ∧
        (rest later.store.nextETag).Safe terms promise (later.put key value))
    (refused : ∀ failure later, terms.rely state later →
      promise (.error (raised failure)) later) :
    (putBytes raised key value condition >>= rest).Safe terms promise state := by
  have raising (failure : Failure) (later last : State K V Time) (passed : terms.rely state later)
      (more : terms.rely later last) : promise (.error (raised failure)) last :=
    refused failure last (terms.rely_trans passed more)
  intro later passed choice reply after _ answered
  rcases answer_put answered with ⟨admitted, rfl, rfl⟩ | ⟨_, rfl, rfl⟩ | ⟨rfl, rfl⟩
  · exact ⟨.put key value (written later passed admitted).1, (written later passed admitted).2⟩
  · exact ⟨.same, fun last more => raising .conflict _ last passed more⟩
  · exact ⟨.same, fun last more => raising .failed _ last passed more⟩

end Session

end Objects

end CityPods.Foundation
