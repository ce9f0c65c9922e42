import CityPods.Foundation.LockedRecords

/-! # One call after the other

Runs in which a call starts only once the calls before it have ended or were
killed, in a world that takes notes of every operation. A call is then alone with
the records: what it has read stays true until it writes.
-/

namespace CityPods.Foundation

variable {I : Interface}

/-- The world, with a note to which every operation adds. -/
def World.noted (W : World I) (Note : Type) (record : W.State → W.State → Note → Note) :
    World I where
  State := W.State × Note
  Choice := W.Choice
  answer state op choice := (W.answer state.1 op choice).map fun answered =>
    (answered.1, answered.2, record state.1 answered.2 state.2)
  drift state choice := (W.drift state.1 choice).map fun after => (after, state.2)

namespace Tasks

variable {W : World I} {A : Activity W}

/-- No call is under way. -/
def Config.Idle (config : Config A) : Prop := ∀ worker ∈ config.workers, worker.task.asks = none

def OneByOne (meets : W.State → A.Call → Prop) (config : Config A) (event : Event A) : Prop :=
  ∀ call, event = .start call → config.Idle ∧ meets config.state call

/-- At most one call is under way. -/
def Config.Sole (config : Config A) : Prop :=
  config.workers.Pairwise fun first second => first.task.asks = none ∨ second.task.asks = none

theorem Config.Sole.other_ended {config : Config A} (sole : config.Sole) {index other : Nat}
    (different : index ≠ other) {worker sibling : Worker A}
    (present : config.workers[index]? = some worker) (active : worker.task.asks ≠ none)
    (also : config.workers[other]? = some sibling) : sibling.task.asks = none := by
  obtain ⟨inside, found⟩ := List.getElem?_eq_some_iff.mp present
  obtain ⟨within, located⟩ := List.getElem?_eq_some_iff.mp also
  have pairs := List.pairwise_iff_getElem.mp sole
  subst found located
  rcases Nat.lt_or_gt_of_ne different with before | after
  · exact (pairs index other inside within before).resolve_left active
  · exact (pairs other index within inside after).resolve_right active

variable {meets : W.State → A.Call → Prop} {initial config : Config A}

theorem sole_of_run (base : initial.workers = []) (run : Run (OneByOne meets) initial config) :
    config.Sole := by
  refine run.invariant Config.Sole ?_ ?_
  · rw [Config.Sole, base]
    exact .nil
  · intro config event after sole permitted moves
    cases moves with
    | drift choice state drifted => exact sole
    | start call mayStart =>
        refine List.pairwise_append.mpr ⟨sole, List.pairwise_singleton _ _, ?_⟩
        exact fun worker member _ _ => .inl ((permitted call rfl).1 worker member)
    | run index choice call op next present reply state answered =>
        have ended (other : Nat) (different : index ≠ other) (sibling : Worker A)
            (also : config.workers[other]? = some sibling) : sibling.task.asks = none :=
          sole.other_ended different present (by simp [Task.asks]) also
        refine List.pairwise_iff_getElem.mpr fun first second inside within before => ?_
        by_cases here : index = first
        · right
          have there : index ≠ second := by omega
          refine ended second there _ ?_
          rw [← List.getElem?_set_ne there]
          exact List.getElem?_eq_getElem within
        · left
          refine ended first here _ ?_
          rw [← List.getElem?_set_ne here]
          exact List.getElem?_eq_getElem inside
    | kill index => exact sole.sublist (List.eraseIdx_sublist _ _)

structure Alone (A : Activity W) (meets : W.State → A.Call → Prop) (bargain : Bargain W) : Prop where
  drifted : ∀ {state choice after}, W.drift state choice = some after →
    ∀ awaited, bargain.rely awaited state after
  assumed : ∀ op state choice, bargain.assumes op state choice
  started : ∀ {state call}, meets state call → A.mayStart state call = true →
    (A.task call).Safe W bargain (fun _ _ => True) state

variable {bargain : Bargain W}

def soleConduct (A : Activity W) (bargain : Bargain W) : Conduct A where
  bargain _ := bargain
  promise _ _ _ _ := True

theorem Alone.sound (alone : Alone A meets bargain) (base : initial.workers = []) :
    (soleConduct A bargain).Sound (OneByOne meets) initial where
  base := base
  drifted _ _ _ _ _ drifted worker _ := .inl (alone.drifted drifted worker.task.asks)
  started _ call _ permitted mayStart := alone.started (permitted call rfl).2 mayStart
  assumed _ _ _ _ _ _ _ _ _ := alone.assumed _ _ _
  apart config run _ index other choice call op next worker reply after different _ present also _ _ := by
    have ended := (sole_of_run base run).other_ended different present (by simp [Task.asks]) also
    obtain ⟨call, task⟩ := worker
    cases task with
    | done result => exact .inr ⟨result, rfl, fun _ _ => trivial⟩
    | perform op next => cases ended

/-- Every step of a run is guaranteed, or the world's own. -/
theorem Alone.guarantees (alone : Alone A meets bargain) (base : initial.workers = [])
    (run : Run (OneByOne meets) initial config) {event : Event A} {after : Config A}
    (permitted : OneByOne meets config event) (moves : config.Moves event after) :
    bargain.rely none config.state after.state ∨ bargain.guarantee config.state after.state := by
  have sound := alone.sound base
  cases moves with
  | drift choice state drifted => exact .inl (alone.drifted drifted none)
  | start call mayStart => exact .inl (bargain.rely_refl none _)
  | run index choice call op next present reply state answered =>
      exact .inr ((sound.kept run).performs sound run permitted present answered).1
  | kill index => exact .inl (bargain.rely_refl none _)

end Tasks

namespace LockedRecords

variable {K V : Type} [DecidableEq K]

/-- The note that is taken of a change, and what every change keeps to. -/
structure Ledger (K V Note : Type) where
  record : Store K V → Store K V → Note → Note
  keeps : Store K V → Note → Store K V → Note → Prop
  record_same : ∀ store note, record store store note = note
  keeps_refl : ∀ store note, keeps store note store note

variable {Note : Type} (ledger : Ledger K V Note)

def notedWorld : World (interface K V) :=
  (world K V).noted Note fun state after => ledger.record state.store after.store

def loneBargain : Bargain (notedWorld ledger) where
  rely _ state after := after.1.store = state.1.store ∧ after.2 = state.2
  assumes _ _ _ := True
  guarantee state after := ledger.keeps state.1.store state.2 after.1.store after.2
  rely_refl _ _ := ⟨rfl, rfl⟩
  rely_trans earlier later := ⟨later.1.trans earlier.1, later.2.trans earlier.2⟩

/-- Alone with the records, the task keeps the ledger in every change, and ends
as promised, whatever comes of its locks and whichever operations fail. -/
def Lone {α : Type} (promise : α → Store K V → Note → Prop) :
    Task (interface K V) α → Store K V → Note → Prop
  | .done result, store, note => promise result store note
  | .perform .now next, store, note => ∀ clock : Int, Lone promise (next clock) store note
  | .perform (.acquire _ _ _) next, store, note => ∀ reply, Lone promise (next reply) store note
  | .perform (.release _ _) next, store, note => ∀ reply, Lone promise (next reply) store note
  | .perform (.get key) next, store, note =>
      Lone promise (next (.ok (store.object key))) store note ∧
        Lone promise (next (.error ())) store note
  | .perform (.put key value) next, store, note =>
      ledger.keeps store note (store.put key value) (ledger.record store (store.put key value) note) ∧
        Lone promise (next (.ok ())) (store.put key value)
          (ledger.record store (store.put key value) note) ∧
        Lone promise (next (.error ())) store note
  | .perform (.delete key _) next, store, note =>
      ledger.keeps store note (store.delete key) (ledger.record store (store.delete key) note) ∧
        Lone promise (next (.ok ())) (store.delete key)
          (ledger.record store (store.delete key) note) ∧
        Lone promise (next (.error ())) store note

section

variable {ledger} {α β ε : Type} {promise : α → Store K V → Note → Prop}
  {promised : β → Store K V → Note → Prop} {store : Store K V} {note : Note}
  {task : Task (interface K V) α}

theorem Lone.bind {rest : α → Task (interface K V) β} (lone : Lone ledger promise task store note)
    (continued : ∀ result later noted, promise result later noted →
      Lone ledger promised (rest result) later noted) :
    Lone ledger promised (task.bind rest) store note := by
  induction task generalizing store note with
  | done result => exact continued result store note lone
  | perform op next induction =>
      cases op with
      | now => exact fun clock => induction clock (lone clock)
      | acquire => exact fun reply => induction reply (lone reply)
      | release => exact fun reply => induction reply (lone reply)
      | get key => exact ⟨induction _ lone.1, induction _ lone.2⟩
      | put key value => exact ⟨lone.1, induction _ lone.2.1, induction _ lone.2.2⟩
      | delete key judged => exact ⟨lone.1, induction _ lone.2.1, induction _ lone.2.2⟩

theorem lone_of_onlyAsks {permitted : Op K V → Prop} (asks : task.OnlyAsks permitted)
    (put : ∀ key value, permitted (.put key value) → ∀ store note,
      ledger.keeps store note (store.put key value) (ledger.record store (store.put key value) note))
    (delete : ∀ key judged, permitted (.delete key judged) → ∀ store note,
      ledger.keeps store note (store.delete key) (ledger.record store (store.delete key) note)) :
    Lone ledger (fun _ _ _ => True) task store note := by
  induction task generalizing store note with
  | done result => trivial
  | perform op next induction =>
      cases op with
      | now => exact fun clock => induction clock (asks.2 clock)
      | acquire => exact fun reply => induction reply (asks.2 reply)
      | release => exact fun reply => induction reply (asks.2 reply)
      | get key => exact ⟨induction _ (asks.2 _), induction _ (asks.2 _)⟩
      | put key value =>
          exact ⟨put key value asks.1 store note, induction _ (asks.2 _), induction _ (asks.2 _)⟩
      | delete key judged =>
          exact ⟨delete key judged asks.1 store note, induction _ (asks.2 _), induction _ (asks.2 _)⟩

theorem Lone.safe {state : (notedWorld ledger).State}
    (lone : Lone ledger promise task state.1.store state.2) :
    task.Safe (notedWorld ledger) (loneBargain ledger)
      (fun result later => promise result later.1.store later.2) state := by
  induction task generalizing state with
  | done result =>
      intro later passed
      rw [passed.1, passed.2]
      exact lone
  | perform op next induction =>
      intro later passed choice reply after _ answered
      rw [← passed.1, ← passed.2] at lone
      obtain ⟨⟨given, state⟩, replied, built⟩ := Option.map_eq_some_iff.mp answered
      cases built
      have kept (stays : state.store = later.1.store)
          (continued : Lone ledger promise (next given) later.1.store later.2) :
          ledger.keeps later.1.store later.2 state.store
              (ledger.record later.1.store state.store later.2) ∧
            (next given).Safe (notedWorld ledger) (loneBargain ledger)
              (fun result later => promise result later.1.store later.2)
              (state, ledger.record later.1.store state.store later.2) := by
        rw [stays, ledger.record_same]
        refine ⟨ledger.keeps_refl _ _, induction given ?_⟩
        show Lone ledger promise (next given) state.store later.2
        rwa [stays]
      cases op with
      | now => exact kept (answer_store replied rfl) (lone given)
      | acquire => exact kept (answer_store replied rfl) (lone given)
      | release => exact kept (answer_store replied rfl) (lone given)
      | get key =>
          cases choice <;> cases replied
          · exact kept rfl lone.1
          · exact kept rfl lone.2
      | put key value =>
          cases choice <;> cases replied
          · exact ⟨lone.1, induction _ lone.2.1⟩
          · exact kept rfl lone.2.2
      | delete key judged =>
          cases choice <;> cases replied
          · exact ⟨lone.1, induction _ lone.2.1⟩
          · exact kept rfl lone.2.2

end

end LockedRecords

end CityPods.Foundation
