import Mathlib.Order.Lattice
import CityPods.Foundation.Program
import CityPods.Foundation.RelyGuarantee

/-! # Object storage with a clock

The world of code that reads a clock and reads, writes and deletes objects, one
call at a time, where every storage call may fail without an effect. The world
keeps a record of what was read and written, newest first, that no code can see.
-/

namespace CityPods.Foundation

namespace Objects

inductive Op (K V : Type)
  | now
  | get (key : K)
  | put (key : K) (value : V) (condition : Condition)
  | delete (key : K)

/-- Why a storage call raised. -/
inductive Failure
  | conflict
  | failed
  deriving DecidableEq, Repr

def interface (K V Time : Type) : Interface where
  Op := Op K V
  Reply
    | .now => Time
    | .get _ => Except Failure (Option (V × ETag))
    | .put _ _ _ => Except Failure ETag
    | .delete _ => Except Failure Unit

inductive Entry (K V Time : Type)
  | read (key : K) (found : Option (V × ETag)) (clock : Time)
  | wrote (key : K) (value : V)
  | deleted (key : K)

structure State (K V Time : Type) where
  store : Store K V
  clock : Time
  log : List (Entry K V Time) := []

inductive Choice (Time : Type)
  | works
  | fails
  | tick (clock : Time)

variable {K V Time : Type}

namespace State

def object (state : State K V Time) (key : K) : Option (V × ETag) := state.store.object key

def noted (state : State K V Time) (entry : Entry K V Time) : State K V Time :=
  { state with log := entry :: state.log }

def read (state : State K V Time) (key : K) : State K V Time :=
  state.noted (.read key (state.object key) state.clock)

variable [DecidableEq K]

def put (state : State K V Time) (key : K) (value : V) : State K V Time :=
  { state.noted (.wrote key value) with store := state.store.put key value }

def delete (state : State K V Time) (key : K) : State K V Time :=
  { state.noted (.deleted key) with store := state.store.delete key }

end State

section

variable [DecidableEq K]

def answer (state : State K V Time) : (op : Op K V) → Choice Time →
    Option ((interface K V Time).Reply op × State K V Time)
  | .now, .works => some (state.clock, state)
  | .get key, .works => some (.ok (state.object key), state.read key)
  | .get _, .fails => some (.error .failed, state)
  | .put key value condition, .works =>
      if state.store.admits key condition then
        some (.ok state.store.nextETag, state.put key value)
      else some (.error .conflict, state)
  | .put _ _ _, .fails => some (.error .failed, state)
  | .delete key, .works => some (.ok (), state.delete key)
  | .delete _, .fails => some (.error .failed, state)
  | _, _ => none

variable {state after : State K V Time} {choice : Choice Time}

theorem answer_now {reply : Time} (answered : answer state .now choice = some (reply, after)) :
    reply = state.clock ∧ after = state := by
  cases choice <;> cases answered
  exact ⟨rfl, rfl⟩

theorem answer_get {key : K} {reply : Except Failure (Option (V × ETag))}
    (answered : answer state (.get key) choice = some (reply, after)) :
    (reply = .ok (state.object key) ∧ after = state.read key) ∨
      (reply = .error .failed ∧ after = state) := by
  cases choice <;> cases answered
  · exact .inl ⟨rfl, rfl⟩
  · exact .inr ⟨rfl, rfl⟩

theorem answer_put {key : K} {value : V} {condition : Condition} {reply : Except Failure ETag}
    (answered : answer state (.put key value condition) choice = some (reply, after)) :
    (state.store.admits key condition = true ∧ reply = .ok state.store.nextETag ∧
        after = state.put key value) ∨
      (state.store.admits key condition = false ∧ reply = .error .conflict ∧ after = state) ∨
      (reply = .error .failed ∧ after = state) := by
  cases choice with
  | works =>
      rw [answer] at answered
      cases admitted : state.store.admits key condition with
      | true =>
          rw [if_pos admitted] at answered
          cases answered
          exact .inl ⟨rfl, rfl, rfl⟩
      | false =>
          rw [if_neg (by simp [admitted])] at answered
          cases answered
          exact .inr (.inl ⟨rfl, rfl, rfl⟩)
  | fails =>
      cases answered
      exact .inr (.inr ⟨rfl, rfl⟩)
  | tick clock => cases answered

theorem answer_delete {key : K} {reply : Except Failure Unit}
    (answered : answer state (.delete key) choice = some (reply, after)) :
    (reply = .ok () ∧ after = state.delete key) ∨ (reply = .error .failed ∧ after = state) := by
  cases choice <;> cases answered
  · exact .inl ⟨rfl, rfl⟩
  · exact .inr ⟨rfl, rfl⟩

end

variable [LinearOrder Time]

/-- The clock never goes back. -/
def drift (state : State K V Time) : Choice Time → Option (State K V Time)
  | .tick clock => if state.clock ≤ clock then some { state with clock := clock } else none
  | _ => none

/-! ## What never changes back -/

/-- The clock and the record only grow, and an object with an old ETag is the
object that had it. -/
structure Forward (state after : State K V Time) : Prop where
  clock : state.clock ≤ after.clock
  log : ∃ newer, after.log = newer ++ state.log
  nextETag : state.store.nextETag ≤ after.store.nextETag
  fresh : state.store.Fresh → after.store.Fresh
  kept : ∀ key value etag, after.object key = some (value, etag) → etag < state.store.nextETag →
    state.object key = some (value, etag)

namespace Forward

theorem refl (state : State K V Time) : Forward state state :=
  ⟨le_refl _, ⟨[], rfl⟩, Nat.le_refl _, id, fun _ _ _ stored _ => stored⟩

theorem trans {first second third : State K V Time} (earlier : Forward first second)
    (later : Forward second third) : Forward first third where
  clock := earlier.clock.trans later.clock
  log := by
    obtain ⟨older, eq⟩ := earlier.log
    obtain ⟨newer, rest⟩ := later.log
    exact ⟨newer ++ older, by rw [rest, eq, List.append_assoc]⟩
  nextETag := Nat.le_trans earlier.nextETag later.nextETag
  fresh := later.fresh ∘ earlier.fresh
  kept key value etag stored old :=
    earlier.kept key value etag
      (later.kept key value etag stored (Nat.lt_of_lt_of_le old earlier.nextETag)) old

theorem noted (state : State K V Time) (entry : Entry K V Time) : Forward state (state.noted entry) :=
  ⟨le_refl _, ⟨[entry], rfl⟩, Nat.le_refl _, id, fun _ _ _ stored _ => stored⟩

theorem drift {state after : State K V Time} {choice : Choice Time}
    (drifted : drift state choice = some after) : Forward state after := by
  cases choice with
  | tick clock =>
      obtain ⟨ahead, eq⟩ := Option.ite_none_right_eq_some.mp drifted
      cases eq
      exact ⟨ahead, ⟨[], rfl⟩, Nat.le_refl _, id, fun _ _ _ stored _ => stored⟩
  | works => cases drifted
  | fails => cases drifted

/-- What was read under an ETag is what a write under this ETag replaces. -/
theorem admits_ifMatch {state later : State K V Time} (forward : Forward state later)
    (fresh : state.store.Fresh) {key : K} {value : V} {etag : ETag}
    (found : state.object key = some (value, etag))
    (admitted : later.store.admits key (.ifMatch etag) = true) :
    later.object key = some (value, etag) := by
  obtain ⟨⟨stored, tag⟩, present, same⟩ := (Option.any_eq_true ..).mp admitted
  cases beq_iff_eq.mp same
  have before := forward.kept key stored tag present (fresh key value tag found)
  cases found.symm.trans before
  exact present

/-- A conditional write over what was read replaces what was read. -/
theorem admits_writeCondition {state later : State K V Time} (forward : Forward state later)
    (fresh : state.store.Fresh) {key : K}
    (admitted : later.store.admits key (writeCondition ((state.object key).map (·.2))) = true) :
    later.object key = state.object key := by
  cases found : state.object key with
  | none =>
      rw [found] at admitted
      exact Option.isNone_iff_eq_none.mp admitted
  | some object =>
      rw [found] at admitted
      exact forward.admits_ifMatch fresh found admitted

variable [DecidableEq K]

theorem put (state : State K V Time) (key : K) (value : V) : Forward state (state.put key value) where
  clock := le_refl _
  log := ⟨[_], rfl⟩
  nextETag := Nat.le_succ _
  fresh fresh := fresh.put key value
  kept other stored etag present old := by
    by_cases same : other = key
    · subst same
      have here := (state.store.put_object_same other value).symm.trans present
      cases here
      exact absurd old (Nat.lt_irrefl _)
    · exact (state.store.put_object_other value same).symm.trans present

theorem delete (state : State K V Time) (key : K) : Forward state (state.delete key) where
  clock := le_refl _
  log := ⟨[_], rfl⟩
  nextETag := Nat.le_refl _
  fresh fresh other value etag present := by
    by_cases same : other = key
    · subst same
      cases (state.store.delete_object_same other).symm.trans present
    · exact fresh other value etag ((state.store.delete_object_other same).symm.trans present)
  kept other stored etag present _ := by
    by_cases same : other = key
    · subst same
      cases (state.store.delete_object_same other).symm.trans present
    · exact (state.store.delete_object_other same).symm.trans present

end Forward

theorem Forward.answer [DecidableEq K] {state after : State K V Time} {op : Op K V}
    {choice : Choice Time} {reply : (interface K V Time).Reply op}
    (answered : answer state op choice = some (reply, after)) : Forward state after := by
  cases op with
  | now => exact (answer_now answered).2 ▸ .refl state
  | get key =>
      rcases answer_get answered with ⟨_, rfl⟩ | ⟨_, rfl⟩
      · exact .noted state _
      · exact .refl after
  | put key value condition =>
      rcases answer_put answered with ⟨_, _, rfl⟩ | ⟨_, _, rfl⟩ | ⟨_, rfl⟩
      · exact .put state key value
      · exact .refl after
      · exact .refl after
  | delete key =>
      rcases answer_delete answered with ⟨_, rfl⟩ | ⟨_, rfl⟩
      · exact .delete state key
      · exact .refl after

/-! ## What one storage call does -/

variable [DecidableEq K]

def world (K V Time : Type) [DecidableEq K] [LinearOrder Time] : World (interface K V Time) where
  State := State K V Time
  Choice := Choice Time
  answer := answer
  drift := drift

theorem Forward.run {A : Activity (world K V Time)}
    {allowed : Tasks.Config A → Tasks.Event A → Prop} {initial config : Tasks.Config A}
    (run : Tasks.Run allowed initial config) : Forward initial.state config.state := by
  induction run with
  | refl => exact .refl _
  | step run event permitted stepped induction =>
      cases Tasks.Config.step_moves stepped with
      | drift choice state drifted => exact induction.trans (.drift drifted)
      | start call mayStart => exact induction
      | run index choice call op next present reply state answered =>
          exact induction.trans (.answer answered)
      | kill index => exact induction

/-- How the state changes at a storage call whose writes are permitted. -/
inductive Touches (permits : K → V → Prop) (state : State K V Time) : State K V Time → Prop
  | same : Touches permits state state
  | read (key : K) : Touches permits state (state.read key)
  | put (key : K) (value : V) (permitted : permits key value) :
      Touches permits state (state.put key value)

theorem Touches.forward {permits : K → V → Prop} {state after : State K V Time}
    (touches : Touches permits state after) : Forward state after := by
  cases touches with
  | same => exact .refl state
  | read key => exact .noted state _
  | put key value permitted => exact .put state key value

end Objects

end CityPods.Foundation
