import CityPods.Foundation.LockedRecords
import Mathlib.Logic.Relation

/-! # Outcomes

How a task ends when nobody else is about, and what that says of its parts, of
every operation on the records, and of a body that runs under a lock.
-/

namespace CityPods.Foundation

variable {I : Interface} {W : World I} {α β ε : Type}

/-- The world drifts, and nobody asks. -/
abbrev World.Drifts (W : World I) : W.State → W.State → Prop :=
  Relation.ReflTransGen fun state later => ∃ choice, W.drift state choice = some later

namespace Task

inductive Ends (W : World I) : Task I α → W.State → α → W.State → Prop
  | done (result : α) (state : W.State) : Ends W (.done result) state result state
  | drift {task : Task I α} {state later last : W.State} {choice : W.Choice} {result : α}
      (drifted : W.drift state choice = some later) (ends : Ends W task later result last) :
      Ends W task state result last
  | perform {op : I.Op} {next : I.Reply op → Task I α} {state after last : W.State}
      {choice : W.Choice} {reply : I.Reply op} {result : α}
      (answered : W.answer state op choice = some (reply, after))
      (ends : Ends W (next reply) after result last) : Ends W (.perform op next) state result last

variable {state last : W.State}

theorem Ends.of_done {value result : α}
    (ends : (Task.done value).Ends W state result last) : result = value ∧ W.Drifts state last := by
  generalize whole : Task.done value = task at ends
  induction ends with
  | done result state =>
      cases whole
      exact ⟨rfl, .refl⟩
  | drift drifted ends induction =>
      exact ⟨(induction whole).1, .head ⟨_, drifted⟩ (induction whole).2⟩
  | perform answered ends induction => cases whole

variable {task : Task I α} {result : α}

theorem Ends.drifts {middle : W.State}
    (ends : task.Ends W state result middle) (drifted : W.Drifts middle last) :
    task.Ends W state result last := by
  induction ends with
  | done result state =>
      induction drifted using Relation.ReflTransGen.head_induction_on with
      | refl => exact .done ..
      | head step rest induction =>
          obtain ⟨choice, moved⟩ := step
          exact .drift moved induction
  | drift moved ends induction => exact .drift moved (induction drifted)
  | perform answered ends induction => exact .perform answered (induction drifted)

theorem Ends.of_bind {rest : α → Task I β} {result : β}
    (ends : (task.bind rest).Ends W state result last) :
    ∃ value middle, task.Ends W state value middle ∧ (rest value).Ends W middle result last := by
  generalize whole : task.bind rest = bound at ends
  induction ends generalizing task with
  | done result state =>
      cases task with
      | done value =>
          have same : rest value = .done result := whole
          exact ⟨value, state, .done value state, same ▸ .done ..⟩
      | perform op next => cases whole
  | drift drifted ends induction =>
      obtain ⟨value, middle, first, second⟩ := induction whole
      exact ⟨value, middle, .drift drifted first, second⟩
  | perform answered ends induction =>
      cases task with
      | done value =>
          have same : rest value = .perform _ _ := whole
          exact ⟨value, _, .done value _, same ▸ .perform answered ends⟩
      | perform op next =>
          cases whole
          obtain ⟨value, middle, first, second⟩ := induction rfl
          exact ⟨value, middle, .perform answered first, second⟩

def alone (W : World I) (choice : W.Choice) : Task I α → W.State → Option (α × W.State)
  | .done result, state => some (result, state)
  | .perform op next, state =>
      (W.answer state op choice).bind fun answered => (next answered.1).alone W choice answered.2

variable {choice : W.Choice}

theorem alone_answered {op : I.Op} {next : I.Reply op → Task I α}
    {after : W.State} {reply : I.Reply op}
    (answered : W.answer state op choice = some (reply, after)) :
    (Task.perform op next).alone W choice state = (next reply).alone W choice after := by
  rw [alone, answered, Option.bind_some]

theorem ends_of_alone
    (ran : task.alone W choice state = some (result, last)) : task.Ends W state result last := by
  induction task generalizing state with
  | done value =>
      cases ran
      exact .done ..
  | perform op next induction =>
      obtain ⟨answered, replied, ran⟩ := Option.bind_eq_some_iff.mp ran
      exact .perform replied (induction _ ran)

theorem Ends.kept {permitted : I.Op → Prop} {holds : W.State → Prop}
    (drifted : ∀ {state choice later}, W.drift state choice = some later → holds state → holds later)
    (answered : ∀ {state op choice reply after}, permitted op →
      W.answer state op choice = some (reply, after) → holds state → holds after)
    (asks : task.OnlyAsks permitted) (ends : task.Ends W state result last) (held : holds state) :
    holds last := by
  induction ends with
  | done result state => exact held
  | drift moved ends induction => exact induction asks (drifted moved held)
  | perform replied ends induction => exact induction (asks.2 _) (answered asks.1 replied held)

/-- Whatever comes of its operations, the task leaves the state. -/
def Leaves (W : World I) (state : W.State) : Task I α → Prop
  | .done _ => True
  | .perform op next => ∀ choice reply after, W.answer state op choice = some (reply, after) →
      after = state ∧ (next reply).Leaves W state

theorem Leaves.alone
    (leaves : task.Leaves W state) (ran : task.alone W choice state = some (result, last)) :
    last = state := by
  induction task with
  | done value =>
      cases ran
      rfl
  | perform op next induction =>
      obtain ⟨⟨reply, after⟩, answered, later⟩ := Option.bind_eq_some_iff.mp ran
      obtain ⟨rfl, left⟩ := leaves choice reply after answered
      exact induction reply left later

end Task

namespace Tasks

variable {A : Activity W}

theorem Reachable.left {state : W.State} {config : Config A}
    (still : ∀ choice, W.drift state choice = none) (leaves : ∀ call, (A.task call).Leaves W state)
    (reachable : Reachable ⟨state, []⟩ config) : config.state = state := by
  suffices kept : config.state = state ∧ ∀ worker ∈ config.workers, worker.task.Leaves W state from
    kept.1
  refine reachable.invariant
    (fun config => config.state = state ∧ ∀ worker ∈ config.workers, worker.task.Leaves W state)
    ⟨rfl, fun _ member => absurd member List.not_mem_nil⟩ ?_
  rintro ⟨_, workers⟩ event after ⟨rfl, all⟩ - moves
  cases moves with
  | drift choice later drifted =>
      rw [still] at drifted
      cases drifted
  | start call permitted =>
      refine ⟨rfl, fun worker member => ?_⟩
      rcases List.mem_append.mp member with before | last
      · exact all worker before
      · rw [List.mem_singleton.mp last]
        exact leaves call
  | run index choice call op next present reply later answered =>
      obtain ⟨rfl, left⟩ := all _ (List.mem_of_getElem? present) choice reply later answered
      refine ⟨rfl, fun worker member => ?_⟩
      rcases mem_resume member with rfl | ⟨other, _, there⟩
      · exact left
      · exact all worker (List.mem_of_getElem? there)
  | kill index =>
      exact ⟨rfl, fun worker member => all worker (List.mem_of_mem_eraseIdx member)⟩

end Tasks

namespace Raising

def Returns (W : World I) (session : Raising I ε α) (state : W.State) (result : α)
    (last : W.State) : Prop :=
  session.run.Ends W state (.ok result) last

variable {session : Raising I ε α} {state last : W.State} {value result : α}

theorem Returns.of_pure (returns : (pure value : Raising I ε α).Returns W state result last) :
    result = value ∧ W.Drifts state last := by
  obtain ⟨same, drifted⟩ := Task.Ends.of_done returns
  exact ⟨Except.ok.inj same, drifted⟩

theorem Returns.of_throw {error : ε}
    (returns : (throw error : Raising I ε α).Returns W state result last) : False := by
  cases (Task.Ends.of_done returns).1

theorem Returns.of_bind {rest : α → Raising I ε β} {result : β}
    (returns : (session >>= rest).Returns W state result last) :
    ∃ value middle, session.Returns W state value middle ∧
      (rest value).Returns W middle result last := by
  obtain ⟨outcome, middle, first, second⟩ := Task.Ends.of_bind returns
  cases outcome with
  | ok value => exact ⟨value, middle, first, second⟩
  | error error => cases (Task.Ends.of_done second).1

theorem Returns.of_attempt {outcome : Except ε α}
    (returns : session.attempt.Returns W state outcome last) :
    session.run.Ends W state outcome last := by
  obtain ⟨reached, middle, first, second⟩ := Task.Ends.of_bind returns
  obtain ⟨same, drifted⟩ := Task.Ends.of_done second
  cases same
  exact first.drifts drifted

theorem Returns.of_perform {op : I.Op} {outcome : I.Reply op → Except ε α}
    (returns : (perform op outcome).Returns W state value last) :
    ∃ before choice reply after, W.Drifts state before ∧
      W.answer before op choice = some (reply, after) ∧ outcome reply = .ok value ∧
      W.Drifts after last := by
  unfold Returns at returns
  generalize whole : (perform op outcome).run = task at returns
  generalize settled : Except.ok value = result at returns
  induction returns with
  | done => cases whole
  | drift drifted ends induction =>
      obtain ⟨before, choice, reply, after, first, answered⟩ := induction whole settled
      exact ⟨before, choice, reply, after, .head ⟨_, drifted⟩ first, answered⟩
  | perform answered ends induction =>
      cases whole
      obtain ⟨same, drifted⟩ := Task.Ends.of_done ends
      exact ⟨_, _, _, _, .refl, answered, same.symm, drifted⟩

end Raising

/-! ## Records -/

namespace LockedRecords

section

variable {K V : Type} [DecidableEq K]

abbrev Returns (session : Session K V ε α) : State K V → α → State K V → Prop :=
  Raising.Returns (world K V) session

theorem drifts_store {state later : State K V} (drifted : (world K V).Drifts state later) :
    later.store = state.store := by
  induction drifted with
  | refl => rfl
  | tail earlier step induction =>
      obtain ⟨choice, moved⟩ := step
      refine Eq.trans ?_ induction
      cases choice with
      | tick clock =>
          obtain ⟨_, ticked⟩ := Option.ite_none_right_eq_some.mp moved
          cases ticked
          rfl
      | works => cases moved
      | fails => cases moved

namespace Session

variable {raised : ε} {state last : State K V} {op : Op K V} {value : α}
  {outcome : (interface K V).Reply op → Except ε α}

theorem returns_perform (returns : Returns (Raising.perform op outcome) state value last) :
    ∃ before choice reply after, before.store = state.store ∧
      answer before op choice = some (reply, after) ∧ outcome reply = .ok value ∧
      last.store = after.store := by
  obtain ⟨before, choice, reply, after, earlier, answered, settled, later⟩ :=
    Raising.Returns.of_perform returns
  exact ⟨before, choice, reply, after, drifts_store earlier, answered, settled, drifts_store later⟩

/-- An operation that changes nothing. -/
theorem returns_reading
    (reads : op.changes = false) (returns : Returns (Raising.perform op outcome) state value last) :
    last.store = state.store := by
  obtain ⟨before, choice, reply, after, earlier, answered, -, later⟩ := returns_perform returns
  rw [later, answer_store answered reads, earlier]

theorem returns_now {clock : Int} (returns : Returns (now : Session K V ε Int) state clock last) :
    last.store = state.store :=
  returns_reading rfl returns

variable {key : K}

theorem returns_get {found : Option (V × ETag)}
    (returns : Returns (get raised key) state found last) :
    found = state.store.object key ∧ last.store = state.store := by
  obtain ⟨before, choice, reply, after, earlier, answered, settled, later⟩ := returns_perform returns
  cases choice with
  | works =>
      cases answered
      rw [← earlier]
      exact ⟨(Except.ok.inj settled).symm, later⟩
  | fails =>
      cases answered
      cases settled
  | tick => cases answered

variable {result : Unit}

theorem returns_put {value : V} (returns : Returns (put raised key value) state result last) :
    last.store = state.store.put key value := by
  obtain ⟨before, choice, reply, after, earlier, answered, settled, later⟩ := returns_perform returns
  cases choice with
  | works =>
      cases answered
      rw [← earlier]
      exact later
  | fails =>
      cases answered
      cases settled
  | tick => cases answered

theorem returns_delete {judged : Option (V × ETag)}
    (returns : Returns (delete raised key judged) state result last) :
    last.store = state.store.delete key := by
  obtain ⟨before, choice, reply, after, earlier, answered, settled, later⟩ := returns_perform returns
  cases choice with
  | works =>
      cases answered
      rw [← earlier]
      exact later
  | fails =>
      cases answered
      cases settled
  | tick => cases answered

variable {lock : String} {body : Session K V ε α}

theorem returns_underLock {token : String} {result : α}
    (returns : Returns (underLock raised lock token body) state result last) :
    ∃ after, Returns body state result after ∧ last.store = after.store := by
  obtain ⟨outcome, after, ran, returns⟩ := Raising.Returns.of_bind returns
  obtain ⟨_, released, release, returns⟩ := Raising.Returns.of_bind returns
  have same := returns_reading rfl release
  cases outcome with
  | ok value =>
      obtain ⟨same_result, drifted⟩ := Raising.Returns.of_pure returns
      subst same_result
      exact ⟨after, Raising.Returns.of_attempt ran, (drifts_store drifted).trans same⟩
  | error error => exact (Raising.Returns.of_throw returns).elim

theorem returns_acquireUntil {busy : ε} {ttl deadline : Int} {tokens : List String} {result : α}
    (returns : Returns (acquireUntil raised busy lock ttl deadline body tokens) state result last) :
    ∃ before after, before.store = state.store ∧ Returns body before result after ∧
      last.store = after.store := by
  induction tokens generalizing state with
  | nil => exact (Raising.Returns.of_throw returns).elim
  | cons token later induction =>
      obtain ⟨got, middle, acquired, returns⟩ := Raising.Returns.of_bind returns
      have same := returns_reading rfl acquired
      cases got with
      | true =>
          obtain ⟨after, ran, kept⟩ := returns_underLock returns
          exact ⟨middle, after, same, ran, kept⟩
      | false =>
          obtain ⟨clock, waited, clocked, returns⟩ := Raising.Returns.of_bind returns
          by_cases expired : deadline ≤ clock
          · simp only [expired, if_true] at returns
            exact (Raising.Returns.of_throw returns).elim
          · simp only [expired, if_false] at returns
            obtain ⟨before, after, began, ran, kept⟩ := induction returns
            exact ⟨before, after, by rw [began, returns_now clocked, same], ran, kept⟩

end Session

end

/-! ## Sessions that spare an object -/

section

variable {K V : Type}

/-- The operation writes and deletes other objects only. -/
def Op.Spares (spared : K) : Op K V → Prop
  | .put key _ => key ≠ spared
  | .delete key _ => key ≠ spared
  | _ => True

namespace Session

def Sparing (spared : K) (session : Session K V ε α) : Prop := session.run.OnlyAsks (Op.Spares spared)

variable {raised : ε} {spared : K}

theorem sparing_pure (result : α) : Sparing spared (pure result : Session K V ε α) := trivial

theorem sparing_throw (error : ε) : Sparing spared (throw error : Session K V ε α) := trivial

variable {session : Session K V ε α}

theorem Sparing.bind {rest : α → Session K V ε β}
    (sparing : Sparing spared session) (continued : ∀ result, Sparing spared (rest result)) :
    Sparing spared (session >>= rest) := by
  refine Task.OnlyAsks.bind sparing ?_
  intro outcome
  cases outcome with
  | ok result => exact continued result
  | error error => exact trivial

theorem Sparing.attempt (sparing : Sparing spared session) :
    Sparing spared session.attempt :=
  Task.OnlyAsks.bind sparing fun _ => trivial

theorem sparing_now : Sparing spared (now : Session K V ε Int) := ⟨trivial, fun _ => trivial⟩

theorem sparing_get (key : K) : Sparing spared (get raised key : Session K V ε _) :=
  ⟨trivial, fun _ => trivial⟩

variable {key : K}

theorem sparing_put (other : key ≠ spared) (value : V) :
    Sparing spared (put raised key value) :=
  ⟨other, fun _ => trivial⟩

theorem sparing_delete (other : key ≠ spared) (judged : Option (V × ETag)) :
    Sparing spared (delete raised key judged) :=
  ⟨other, fun _ => trivial⟩

theorem sparing_acquireUntil {busy : ε} {lock : String} {ttl deadline : Int}
    {body : Session K V ε α} (sparing : Sparing spared body) (tokens : List String) :
    Sparing spared (acquireUntil raised busy lock ttl deadline body tokens) := by
  induction tokens with
  | nil => exact sparing_throw _
  | cons token rest induction =>
      have acquired : Sparing spared (acquire raised lock token ttl : Session K V ε Bool) :=
        ⟨trivial, fun _ => trivial⟩
      have released : Sparing spared (release raised lock token : Session K V ε Unit) :=
        ⟨trivial, fun _ => trivial⟩
      refine acquired.bind fun got => ?_
      split
      · refine sparing.attempt.bind fun outcome => ?_
        refine released.bind fun _ => ?_
        cases outcome with
        | ok result => exact sparing_pure result
        | error error => exact sparing_throw error
      · refine sparing_now.bind fun clock => ?_
        split
        · exact sparing_throw _
        · exact induction

theorem Sparing.object [DecidableEq K] {state last : State K V} {outcome : Except ε α}
    (sparing : Sparing spared session) (ends : session.run.Ends (world K V) state outcome last) :
    last.store.object spared = state.store.object spared := by
  refine @Task.Ends.kept _ (world K V) _ _ _ _ _ _
    (fun later => later.store.object spared = state.store.object spared)
    (fun moved held => ?_) (fun permitted answered held => ?_) sparing ends rfl
  · rw [drifts_store (.single ⟨_, moved⟩), held]
  · rename_i op choice reply after
    cases op with
    | put key value =>
        cases choice <;> cases answered
        · exact (Store.put_object_other _ _ (Ne.symm permitted)).trans held
        · exact held
    | delete key judged =>
        cases choice <;> cases answered
        · exact (Store.delete_object_other _ (Ne.symm permitted)).trans held
        · exact held
    | now => rw [answer_store answered rfl, held]
    | acquire => rw [answer_store answered rfl, held]
    | release => rw [answer_store answered rfl, held]
    | get => rw [answer_store answered rfl, held]

end Session

end

end LockedRecords

end CityPods.Foundation
