import CityPods.Foundation.Program
import CityPods.Foundation.Raising

/-! # Records beside a lock

A store of records without conditional writes, and locks that expire. Calls that
read and then write or delete do so under the lock of the records; a call that
does not, is kept apart from them by nothing. A deletion names the object that
the caller has judged, which the store does not look at.
-/

namespace CityPods.Foundation

namespace LockedRecords

/-- A deletion with the object that the caller had judged and the one removed. -/
structure Deletion (K V : Type) where
  key : K
  judged : Option (V × ETag)
  removed : Option (V × ETag)

inductive Op (K V : Type)
  | now
  | acquire (lock token : String) (ttl : Int)
  | release (lock token : String)
  | get (key : K)
  | put (key : K) (value : V)
  | delete (key : K) (judged : Option (V × ETag))

/-- Every operation but the clock's may raise, without an effect. -/
def interface (K V : Type) : Interface where
  Op := Op K V
  Reply
    | .now => Int
    | .acquire _ _ _ => Except Unit Bool
    | .release _ _ => Except Unit Unit
    | .get _ => Except Unit (Option (V × ETag))
    | .put _ _ => Except Unit Unit
    | .delete _ _ => Except Unit Unit

structure State (K V : Type) where
  store : Store K V
  locks : String → Option (String × Int)
  clock : Int
  deletions : List (Deletion K V) := []

inductive Choice
  | works
  | fails
  | tick (clock : Int)

variable {K V : Type}

/-- Nobody holds the lock, or the holder's time is over. -/
def State.isOpen (state : State K V) (lock : String) : Bool :=
  (state.locks lock).all fun held => decide (held.2 ≤ state.clock)

def State.Holds (state : State K V) (lock token : String) : Prop :=
  ∃ expiry, state.locks lock = some (token, expiry)

variable [DecidableEq K]

def answer (state : State K V) : (op : Op K V) → Choice →
    Option ((interface K V).Reply op × State K V)
  | .now, .works => some (state.clock, state)
  | .acquire lock token ttl, .works =>
      if state.isOpen lock then
        some (.ok true, { state with
          locks := Function.update state.locks lock (some (token, state.clock + ttl)) })
      else some (.ok false, state)
  | .release lock token, .works =>
      if (state.locks lock).any fun held => held.1 == token then
        some (.ok (), { state with locks := Function.update state.locks lock none })
      else some (.ok (), state)
  | .get key, .works => some (.ok (state.store.object key), state)
  | .put key value, .works => some (.ok (), { state with store := state.store.put key value })
  | .delete key judged, .works =>
      some (.ok (), { state with
        store := state.store.delete key
        deletions := ⟨key, judged, state.store.object key⟩ :: state.deletions })
  | .acquire _ _ _, .fails => some (.error (), state)
  | .release _ _, .fails => some (.error (), state)
  | .get _, .fails => some (.error (), state)
  | .put _ _, .fails => some (.error (), state)
  | .delete _ _, .fails => some (.error (), state)
  | _, _ => none

def drift (state : State K V) : Choice → Option (State K V)
  | .tick clock => if state.clock ≤ clock then some { state with clock := clock } else none
  | _ => none

def world (K V : Type) [DecidableEq K] : World (interface K V) where
  State := State K V
  Choice := Choice
  answer := answer
  drift := drift

def Op.changes : Op K V → Bool
  | .put _ _ => true
  | .delete _ _ => true
  | _ => false

theorem answer_store {state after : State K V} {op : Op K V} {choice : Choice}
    {reply : (interface K V).Reply op} (answered : answer state op choice = some (reply, after))
    (reads : op.changes = false) : after.store = state.store := by
  cases op with
  | put => cases reads
  | delete => cases reads
  | acquire lock token ttl =>
      cases choice with
      | works =>
          rw [answer] at answered
          split at answered <;> cases answered <;> rfl
      | fails => cases answered; rfl
      | tick => cases answered
  | release lock token =>
      cases choice with
      | works =>
          rw [answer] at answered
          split at answered <;> cases answered <;> rfl
      | fails => cases answered; rfl
      | tick => cases answered
  | now => cases choice <;> cases answered; rfl
  | get => cases choice <;> cases answered <;> rfl

abbrev Session (K V ε α : Type) : Type := Raising (interface K V) ε α

namespace Session

variable {ε α : Type} (raised : ε)

def now : Session K V ε Int := Raising.perform .now .ok

def acquire (lock token : String) (ttl : Int) : Session K V ε Bool :=
  Raising.perform (.acquire lock token ttl) (Except.mapError fun _ => raised)

def release (lock token : String) : Session K V ε Unit :=
  Raising.perform (.release lock token) (Except.mapError fun _ => raised)

def get (key : K) : Session K V ε (Option (V × ETag)) :=
  Raising.perform (.get key) (Except.mapError fun _ => raised)

def put (key : K) (value : V) : Session K V ε Unit :=
  Raising.perform (.put key value) (Except.mapError fun _ => raised)

def delete (key : K) (judged : Option (V × ETag)) : Session K V ε Unit :=
  Raising.perform (.delete key judged) (Except.mapError fun _ => raised)

def underLock (lock token : String) (body : Session K V ε α) : Session K V ε α := do
  let outcome ← body.attempt
  release raised lock token
  match outcome with
  | .ok result => return result
  | .error error => throw error

/-- Tries again for the lock, with a new token each time, until the deadline. -/
def acquireUntil (busy : ε) (lock : String) (ttl deadline : Int) (body : Session K V ε α) :
    List String → Session K V ε α
  | [] => throw busy
  | token :: later => do
      if ← acquire raised lock token ttl then underLock raised lock token body
      else
        let clock ← now
        if deadline ≤ clock then throw busy
        else acquireUntil busy lock ttl deadline body later

end Session

end LockedRecords

end CityPods.Foundation
