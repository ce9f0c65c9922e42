import Mathlib.Data.List.Basic

/-! # Tasks

Sequential code as a tree of the operations it asks of the world around it, and
any number of such calls side by side: one operation at a time, in any order. A
call may be killed between two of its operations.
-/

namespace CityPods.Foundation

/-- The operations that code can ask for, each with the type of its reply. -/
structure Interface where
  Op : Type
  Reply : Op → Type

inductive Task (I : Interface) (α : Type)
  | done (result : α)
  | perform (op : I.Op) (next : I.Reply op → Task I α)

namespace Task

variable {I : Interface} {α β γ : Type}

def bind : Task I α → (α → Task I β) → Task I β
  | .done result, rest => rest result
  | .perform op next, rest => .perform op fun reply => (next reply).bind rest

instance : Monad (Task I) where
  pure := .done
  bind := bind

/-- One operation, as a statement of a `do` block. -/
def call (op : I.Op) : Task I (I.Reply op) := .perform op .done

variable (rest : α → Task I β)

@[simp] theorem pure_eq_done (result : α) : (pure result : Task I α) = .done result := rfl

@[simp] theorem bind_eq_bind (task : Task I α) : task >>= rest = task.bind rest := rfl

@[simp] theorem bind_done (result : α) : (Task.done result).bind rest = rest result := rfl

@[simp] theorem bind_perform (op : I.Op) (next : I.Reply op → Task I α) :
    (Task.perform op next).bind rest = .perform op fun reply => (next reply).bind rest := rfl

@[simp] theorem call_bind (op : I.Op) (rest : I.Reply op → Task I β) :
    (call op).bind rest = .perform op rest := rfl

theorem bind_right (task : Task I α) : task.bind .done = task := by
  induction task with
  | done result => rfl
  | perform op next induction => simp [induction]

theorem bind_assoc (task : Task I α) (first : α → Task I β) (second : β → Task I γ) :
    (task.bind first).bind second = task.bind fun value => (first value).bind second := by
  induction task with
  | done result => rfl
  | perform op next induction => simp [induction]

def asks : Task I α → Option I.Op
  | .done _ => none
  | .perform op _ => some op

/-- Every operation the task can come to is permitted. -/
def OnlyAsks (permitted : I.Op → Prop) : Task I α → Prop
  | .done _ => True
  | .perform op next => permitted op ∧ ∀ reply, (next reply).OnlyAsks permitted

theorem OnlyAsks.bind {permitted : I.Op → Prop} {task : Task I α} {rest : α → Task I β}
    (first : task.OnlyAsks permitted) (later : ∀ result, (rest result).OnlyAsks permitted) :
    (task.bind rest).OnlyAsks permitted := by
  induction task with
  | done result => exact later result
  | perform op next induction =>
      exact ⟨first.1, fun reply => induction reply (first.2 reply)⟩

end Task

/-- What answers the operations. A choice settles what the code cannot foresee;
the state may also drift by itself. -/
structure World (I : Interface) where
  State : Type
  Choice : Type
  answer : State → (op : I.Op) → Choice → Option (I.Reply op × State)
  drift : State → Choice → Option State

/-- A family of calls that run in one world. -/
structure Activity {I : Interface} (W : World I) where
  Call : Type
  Result : Type
  task : Call → Task I Result
  mayStart : W.State → Call → Bool

namespace Tasks

variable {I : Interface} {W : World I}

structure Worker (A : Activity W) where
  call : A.Call
  task : Task I A.Result

structure Config (A : Activity W) where
  state : W.State
  workers : List (Worker A)

inductive Event (A : Activity W)
  | drift (choice : W.Choice)
  | start (call : A.Call)
  | run (worker : Nat) (choice : W.Choice)
  | kill (worker : Nat)

namespace Config

variable {A : Activity W}

/-- The worker at the index goes on, in the state its operation left. -/
def resume (config : Config A) (index : Nat) (worker : Worker A) (state : W.State) : Config A where
  state := state
  workers := config.workers.set index worker

def advance (config : Config A) (index : Nat) (choice : W.Choice) (call : A.Call) :
    Task I A.Result → Option (Config A)
  | .done _ => none
  | .perform op next =>
      (W.answer config.state op choice).map fun answered =>
        config.resume index ⟨call, next answered.1⟩ answered.2

def step (config : Config A) : Event A → Option (Config A)
  | .drift choice => (W.drift config.state choice).map fun state => { config with state := state }
  | .start call =>
      if A.mayStart config.state call then
        some { config with workers := config.workers ++ [⟨call, A.task call⟩] }
      else none
  | .run index choice =>
      config.workers[index]?.bind fun worker =>
        config.advance index choice worker.call worker.task
  | .kill index => some { config with workers := config.workers.eraseIdx index }

def execute (permits : Config A → Event A → Bool) (config : Config A) :
    List (Event A) → Option (Config A)
  | [] => some config
  | event :: later =>
      if permits config event then
        (config.step event).bind fun next => next.execute permits later
      else none

inductive Moves (config : Config A) : Event A → Config A → Prop
  | drift (choice : W.Choice) (state : W.State) (drifted : W.drift config.state choice = some state) :
      Moves config (.drift choice) { config with state := state }
  | start (call : A.Call) (permitted : A.mayStart config.state call = true) :
      Moves config (.start call)
        { config with workers := config.workers ++ [⟨call, A.task call⟩] }
  | run (index : Nat) (choice : W.Choice) (call : A.Call) (op : I.Op)
      (next : I.Reply op → Task I A.Result)
      (present : config.workers[index]? = some ⟨call, .perform op next⟩) (reply : I.Reply op)
      (state : W.State) (answered : W.answer config.state op choice = some (reply, state)) :
      Moves config (.run index choice) (config.resume index ⟨call, next reply⟩ state)
  | kill (index : Nat) :
      Moves config (.kill index) { config with workers := config.workers.eraseIdx index }

theorem step_moves {config after : Config A} {event : Event A}
    (stepped : config.step event = some after) : config.Moves event after := by
  cases event with
  | drift choice =>
      obtain ⟨state, drifted, rfl⟩ := Option.map_eq_some_iff.mp stepped
      exact .drift choice state drifted
  | start call =>
      unfold step at stepped
      dsimp only at stepped
      split at stepped
      · next permitted =>
        cases stepped
        exact .start call permitted
      · cases stepped
  | run index choice =>
      obtain ⟨⟨call, task⟩, present, advanced⟩ := Option.bind_eq_some_iff.mp stepped
      cases task with
      | done result => cases advanced
      | perform op next =>
          obtain ⟨⟨reply, state⟩, answered, rfl⟩ := Option.map_eq_some_iff.mp advanced
          exact .run index choice call op next present reply state answered
  | kill index =>
      cases stepped
      exact .kill index

end Config

/-! ## Runs -/

/-- A run all of whose events are allowed in the state in which they happen. -/
inductive Run {A : Activity W} (allowed : Config A → Event A → Prop) (initial : Config A) :
    Config A → Prop
  | refl : Run allowed initial initial
  | step {config after : Config A} (run : Run allowed initial config) (event : Event A)
      (permitted : allowed config event) (stepped : config.step event = some after) :
      Run allowed initial after

abbrev Reachable {A : Activity W} (initial config : Config A) : Prop :=
  Run (fun _ _ => True) initial config

variable {A : Activity W} {allowed : Config A → Event A → Prop} {initial config : Config A}

theorem Run.invariant (holds : Config A → Prop) (base : holds initial)
    (kept : ∀ config event after, holds config → allowed config event →
      config.Moves event after → holds after)
    (run : Run allowed initial config) : holds config := by
  induction run with
  | refl => exact base
  | step run event permitted stepped induction =>
      exact kept _ event _ induction permitted (Config.step_moves stepped)

theorem Run.trans {middle : Config A} (earlier : Run allowed initial middle)
    (later : Run allowed middle config) : Run allowed initial config := by
  induction later with
  | refl => exact earlier
  | step run event permitted stepped induction => exact .step induction event permitted stepped

variable {events : List (Event A)}

theorem Run.of_execute {permits : Config A → Event A → Bool}
    (executed : initial.execute permits events = some config) :
    Run (fun config event => permits config event = true) initial config := by
  suffices extended : ∀ middle, Run (fun config event => permits config event = true) initial middle →
      middle.execute permits events = some config →
        Run (fun config event => permits config event = true) initial config from
    extended initial .refl executed
  clear executed
  induction events with
  | nil =>
      intro middle run executed
      cases executed
      exact run
  | cons event later induction =>
      intro middle run executed
      rw [Config.execute] at executed
      split at executed
      · next permitted =>
        obtain ⟨next, stepped, rest⟩ := Option.bind_eq_some_iff.mp executed
        exact induction next (.step run event permitted stepped) rest
      · cases executed

theorem Run.weaken {more : Config A → Event A → Prop} (run : Run allowed initial config)
    (implies : ∀ config event, allowed config event → more config event) :
    Run more initial config := by
  induction run with
  | refl => exact .refl
  | step run event permitted stepped induction =>
      exact .step induction event (implies _ _ permitted) stepped

theorem Reachable.of_execute (executed : initial.execute (fun _ _ => true) events = some config) :
    Reachable initial config :=
  (Run.of_execute executed).weaken fun _ _ _ => trivial

/-! ## Workers -/

variable {index : Nat} {worker : Worker A}

theorem mem_resume {moved : Worker A} {state : W.State}
    (member : worker ∈ (config.resume index moved state).workers) :
    worker = moved ∨ ∃ other, other ≠ index ∧ config.workers[other]? = some worker := by
  obtain ⟨other, inside, found⟩ := List.mem_iff_getElem.mp member
  by_cases same : index = other
  · subst same
    left
    rw [← found]
    exact List.getElem_set_self _
  · right
    refine ⟨other, Ne.symm same, ?_⟩
    have here : (config.workers.set index moved)[other]? = some worker :=
      List.getElem?_eq_some_iff.mpr ⟨inside, found⟩
    rwa [List.getElem?_set_ne same] at here

variable {after : Config A} {event : Event A}

theorem Config.Moves.call_at (moves : config.Moves event after)
    (alive : ∀ place, event ≠ .kill place) (present : after.workers[index]? = some worker) :
    (∃ earlier, config.workers[index]? = some earlier ∧ earlier.call = worker.call) ∨
      (event = .start worker.call ∧ index = config.workers.length) := by
  cases moves with
  | drift choice state drifted => exact .inl ⟨worker, present, rfl⟩
  | start call permitted =>
      rw [List.getElem?_append] at present
      split at present
      · exact .inl ⟨worker, present, rfl⟩
      · next beyond =>
        obtain ⟨here, found⟩ := List.getElem?_eq_some_iff.mp present
        have last : index = config.workers.length := by
          simp only [List.length_singleton] at here
          omega
        rw [List.getElem_singleton] at found
        subst found
        exact .inr ⟨rfl, last⟩
  | run place choice call op next running reply state answered =>
      by_cases same : place = index
      · subst same
        obtain ⟨inside, _⟩ := List.getElem?_eq_some_iff.mp running
        have here := (List.getElem?_set_self inside).symm.trans present
        cases here
        exact .inl ⟨_, running, rfl⟩
      · exact .inl ⟨worker, (List.getElem?_set_ne same).symm.trans present, rfl⟩
  | kill place => exact absurd rfl (alive place)

def Config.calls (config : Config A) : List A.Call := config.workers.map Worker.call

variable {relation : A.Call → A.Call → Prop}

/-- A relation between any two calls is kept, if every new call respects it. -/
theorem Config.Moves.pairwise
    (moves : config.Moves event after) (related : config.calls.Pairwise relation)
    (started : ∀ call, event = .start call → ∀ other ∈ config.calls, relation other call) :
    after.calls.Pairwise relation := by
  cases moves with
  | drift choice state drifted => exact related
  | start call permitted =>
      have grown : (config.workers ++ [(⟨call, A.task call⟩ : Worker A)]).map Worker.call =
          config.calls ++ [call] := by simp [Config.calls]
      rw [Config.calls, grown, List.pairwise_append]
      refine ⟨related, List.pairwise_singleton _ _, fun other member new single => ?_⟩
      cases List.mem_singleton.mp single
      exact started call rfl other member
  | run index choice call op next present reply state answered =>
      have same : (config.resume index ⟨call, next reply⟩ state).calls = config.calls := by
        obtain ⟨inside, found⟩ := List.getElem?_eq_some_iff.mp present
        apply List.ext_getElem (by simp [Config.calls, Config.resume])
        intro place _ _
        by_cases here : index = place
        · subst here
          simp [Config.calls, Config.resume, found]
        · simp [Config.calls, Config.resume, List.getElem_set_ne here]
      rw [same]
      exact related
  | kill index => exact related.sublist ((List.eraseIdx_sublist _ _).map Worker.call)

theorem Config.related (symmetric : ∀ {first second}, relation first second → relation second first)
    (related : config.calls.Pairwise relation) {other : Nat} (different : index ≠ other)
    {sibling : Worker A} (present : config.workers[index]? = some worker)
    (also : config.workers[other]? = some sibling) : relation worker.call sibling.call := by
  have here : config.calls[index]? = some worker.call := by simp [Config.calls, present]
  have there : config.calls[other]? = some sibling.call := by simp [Config.calls, also]
  obtain ⟨inside, found⟩ := List.getElem?_eq_some_iff.mp here
  obtain ⟨within, located⟩ := List.getElem?_eq_some_iff.mp there
  rw [← found, ← located]
  rcases Nat.lt_or_gt_of_ne different with before | after
  · exact List.pairwise_iff_getElem.mp related index other inside within before
  · exact symmetric (List.pairwise_iff_getElem.mp related other index within inside after)

end Tasks

end CityPods.Foundation
