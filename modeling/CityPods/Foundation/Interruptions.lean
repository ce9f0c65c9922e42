import CityPods.Foundation.Tasks

/-! # Interruptions

Calls that run one after the other, each of which may be killed at an operation.
What comes of a call is proved of its task, operation by operation.
-/

namespace CityPods.Foundation

variable {I : Interface} {W : World I} {α β : Type}

/-- Which choices may answer an operation, and at which one a call may be killed. -/
structure Conditions (W : World I) where
  allows : W.State → (op : I.Op) → W.Choice → Prop
  interrupts : W.State → I.Op → Prop

namespace Task

/-- The task runs by itself, to a result or until it is killed. -/
inductive Conducted (C : Conditions W) : Task I α → W.State → Option α → W.State → Prop
  | done (result : α) (state : W.State) : Conducted C (.done result) state (some result) state
  | interrupted {op : I.Op} {next : I.Reply op → Task I α} {state : W.State}
      (permitted : C.interrupts state op) : Conducted C (.perform op next) state none state
  | perform {op : I.Op} {next : I.Reply op → Task I α} {state after last : W.State}
      {choice : W.Choice} {reply : I.Reply op} {result : Option α}
      (allowed : C.allows state op choice)
      (answered : W.answer state op choice = some (reply, after))
      (conducted : Conducted C (next reply) after result last) :
      Conducted C (.perform op next) state result last

/-- However it runs, the task leaves what is promised, also where it is killed. -/
def Yields (C : Conditions W) (promise : Option α → W.State → Prop) : Task I α → W.State → Prop
  | .done result, state => promise (some result) state
  | .perform op next, state =>
      (C.interrupts state op → promise none state) ∧
        ∀ choice reply after, C.allows state op choice →
          W.answer state op choice = some (reply, after) → (next reply).Yields C promise after

variable {C : Conditions W} {task : Task I α} {state last : W.State} {result : Option α}
  {promise : Option α → W.State → Prop}

theorem Conducted.yields
    (conducted : task.Conducted C state result last) (yields : task.Yields C promise state) :
    promise result last := by
  induction conducted with
  | done result state => exact yields
  | interrupted permitted => exact yields.1 permitted
  | perform allowed answered conducted induction =>
      exact induction (yields.2 _ _ _ allowed answered)

theorem Yields.weaken {weaker : Option α → W.State → Prop} (yields : task.Yields C promise state)
    (implies : ∀ result last, promise result last → weaker result last) :
    task.Yields C weaker state := by
  induction task generalizing state with
  | done result => exact implies _ _ yields
  | perform op next induction =>
      exact ⟨fun permitted => implies _ _ (yields.1 permitted), fun choice reply after allowed answered =>
        induction reply (yields.2 choice reply after allowed answered)⟩

theorem Yields.bind {promised : Option β → W.State → Prop}
    {rest : α → Task I β} (yields : task.Yields C promise state)
    (continued : ∀ result last, promise (some result) last → (rest result).Yields C promised last)
    (killed : ∀ last, promise none last → promised none last) :
    (task.bind rest).Yields C promised state := by
  induction task generalizing state with
  | done result => exact continued _ _ yields
  | perform op next induction =>
      exact ⟨fun permitted => killed _ (yields.1 permitted), fun choice reply after allowed answered =>
        induction reply (yields.2 choice reply after allowed answered)⟩

/-- Where nothing is killed, the task ends with a result. -/
theorem Yields.ended
    (never : ∀ state op, ¬ C.interrupts state op) (yields : task.Yields C promise state) :
    task.Yields C (fun result last => result ≠ none ∧ promise result last) state := by
  induction task generalizing state with
  | done result => exact ⟨by simp, yields⟩
  | perform op next induction =>
      exact ⟨fun permitted => absurd permitted (never _ _), fun choice reply after allowed answered =>
        induction reply (yields.2 choice reply after allowed answered)⟩

theorem OnlyAsks.yields {permitted : I.Op → Prop} {holds : W.State → Prop}
    (asks : task.OnlyAsks permitted)
    (answered : ∀ {state op choice reply after}, permitted op → C.allows state op choice →
      W.answer state op choice = some (reply, after) → holds state → holds after)
    (held : holds state) : task.Yields C (fun _ => holds) state := by
  induction task generalizing state with
  | done result => exact held
  | perform op next induction =>
      exact ⟨fun _ => held, fun choice reply after allowed replied =>
        induction reply (asks.2 reply) (answered asks.1 allowed replied held)⟩

/-- The task with the choices in turn, killed where they run out. -/
def replay (W : World I) (permits : W.State → (op : I.Op) → W.Choice → Bool)
    (stops : W.State → I.Op → Bool) : Task I α → W.State → List W.Choice → Option (Option α × W.State)
  | .done result, state, _ => some (some result, state)
  | .perform op _, state, [] => if stops state op then some (none, state) else none
  | .perform op next, state, choice :: later =>
      if permits state op choice then
        (W.answer state op choice).bind fun answered =>
          (next answered.1).replay W permits stops answered.2 later
      else none

theorem conducted_of_replay {permits : W.State → (op : I.Op) → W.Choice → Bool}
    {stops : W.State → I.Op → Bool} {choices : List W.Choice}
    (allows : ∀ state op choice, permits state op choice = true → C.allows state op choice)
    (interrupts : ∀ state op, stops state op = true → C.interrupts state op)
    (ran : task.replay W permits stops state choices = some (result, last)) :
    task.Conducted C state result last := by
  induction task generalizing state choices with
  | done value =>
      cases ran
      exact .done ..
  | perform op next induction =>
      cases choices with
      | nil =>
          obtain ⟨stopped, same⟩ := Option.ite_none_right_eq_some.mp ran
          cases same
          exact .interrupted (interrupts _ op stopped)
      | cons choice later =>
          obtain ⟨permitted, ran⟩ := Option.ite_none_right_eq_some.mp ran
          obtain ⟨answered, replied, ran⟩ := Option.bind_eq_some_iff.mp ran
          exact .perform (allows state op choice permitted) replied (induction _ ran)

end Task

namespace Tasks

variable {A : Activity W} {C : Conditions W}

/-- Calls one after the other. -/
inductive Conducts (A : Activity W) (C : Conditions W) : W.State → List A.Call → W.State → Prop
  | nil (state : W.State) : Conducts A C state [] state
  | cons {state middle last : W.State} {call : A.Call} {later : List A.Call}
      {result : Option A.Result} (permitted : A.mayStart state call = true)
      (conducted : (A.task call).Conducted C state result middle)
      (conducts : Conducts A C middle later last) : Conducts A C state (call :: later) last

variable {state last : W.State} {call : A.Call}

theorem Conducts.single {result : Option A.Result} (permitted : A.mayStart state call = true)
    (conducted : (A.task call).Conducted C state result last) : Conducts A C state [call] last :=
  .cons permitted conducted (.nil last)

variable {later : List A.Call}

theorem Conducts.append {middle : W.State} {earlier : List A.Call}
    (before : Conducts A C state earlier middle) (after : Conducts A C middle later last) :
    Conducts A C state (earlier ++ later) last := by
  induction before with
  | nil state => exact after
  | cons permitted conducted conducts induction => exact .cons permitted conducted (induction after)

theorem Conducts.of_nil (conducts : Conducts A C state [] last) :
    last = state := by
  cases conducts
  rfl

theorem Conducts.of_cons (conducts : Conducts A C state (call :: later) last) :
    ∃ middle result, (A.task call).Conducted C state result middle ∧
      Conducts A C middle later last := by
  cases conducts with
  | cons permitted conducted conducts => exact ⟨_, _, conducted, conducts⟩

theorem Conducts.invariant {holds : W.State → Prop} {calls : List A.Call}
    (conducts : Conducts A C state calls last) (held : holds state)
    (kept : ∀ state call, A.mayStart state call = true → holds state →
      (A.task call).Yields C (fun _ => holds) state) : holds last := by
  induction conducts with
  | nil state => exact held
  | cons permitted conducted conducts induction =>
      exact induction (conducted.yields (kept _ _ permitted held))

end Tasks

end CityPods.Foundation
