import Mathlib.Order.Lattice
import CityPods.Foundation.Contract

/-! # Interleaved workers over one store

Any number of calls run side by side, one storage operation at a time, in any
order. A worker that is never scheduled again models a crash. Every successful
write is recorded, so that what the calls did to one object can be read off the
history afterwards.
-/

namespace CityPods.Foundation

/-- A family of calls. `mayStart now call` says that `call` carries the
arguments of a call made at time `now`. -/
structure Service (K V Q N Time : Type) where
  Call : Type
  Result : Type
  program : Call → Program K V Q N Result
  mayStart : Time → Call → Bool

structure Worker (S : Service K V Q N Time) where
  call : S.Call
  program : Program K V Q N S.Result

/-- One successful write, with the object it replaced. -/
structure Event (S : Service K V Q N Time) where
  worker : Nat
  call : S.Call
  key : K
  before : Option (V × ETag)
  after : Option (V × ETag)
  time : Time

/-- `history` is newest first. -/
structure Config (S : Service K V Q N Time) where
  store : Store K V
  clock : Time
  workers : List (Worker S)
  history : List (Event S)

inductive Step (S : Service K V Q N Time)
  | tick (now : Time)
  | start (call : S.Call)
  | run (worker : Nat) (reply : Bool)

namespace Config

variable {S : Service K V Q N Time}

def init (store : Store K V) (clock : Time) : Config S where
  store := store
  clock := clock
  workers := []
  history := []

def resume (config : Config S) (index : Nat) (call : S.Call)
    (next : Program K V Q N S.Result) : Config S :=
  { config with workers := config.workers.set index ⟨call, next⟩ }

/-- The write of the worker at `index` that turns the store into `store`. -/
def record (config : Config S) (index : Nat) (call : S.Call) (key : K)
    (store : Store K V) : Event S where
  worker := index
  call := call
  key := key
  before := config.store.object key
  after := store.object key
  time := config.clock

def commit (config : Config S) (index : Nat) (call : S.Call) (key : K)
    (store : Store K V) (next : Program K V Q N S.Result) : Config S where
  store := store
  clock := config.clock
  workers := config.workers.set index ⟨call, next⟩
  history := config.record index call key store :: config.history

def advance [DecidableEq K] (config : Config S) (index : Nat) (call : S.Call)
    (reply : Bool) : Program K V Q N S.Result → Option (Config S)
  | .done _ => none
  | .get key next => some (config.resume index call (next (config.store.object key)))
  | .put key value condition next =>
      if config.store.admits key condition then
        some (config.commit index call key (config.store.put key value) (next true))
      else
        some (config.resume index call (next false))
  | .delete key next =>
      some (config.commit index call key (config.store.delete key) next)
  | .ask _ next => some (config.resume index call (next reply))
  | .note _ next => some (config.resume index call next)

def step [DecidableEq K] [LinearOrder Time] (config : Config S) :
    Step S → Option (Config S)
  | .tick now => if config.clock ≤ now then some { config with clock := now } else none
  | .start call =>
      if S.mayStart config.clock call then
        some { config with workers := config.workers ++ [⟨call, S.program call⟩] }
      else
        none
  | .run index reply =>
      match config.workers[index]? with
      | none => none
      | some worker => config.advance index worker.call reply worker.program

/-- Execute a schedule; `none` if one of its steps is not possible or not
permitted in the state it would start from. -/
def execute [DecidableEq K] [LinearOrder Time] (permits : Config S → Step S → Bool)
    (config : Config S) : List (Step S) → Option (Config S)
  | [] => some config
  | step :: rest =>
      if permits config step then
        (config.step step).bind fun next => next.execute permits rest
      else
        none

def steps [DecidableEq K] [LinearOrder Time] (config : Config S) (schedule : List (Step S)) :
    Option (Config S) :=
  config.execute (fun _ _ => true) schedule

def Quiescent (config : Config S) : Prop :=
  ∀ worker ∈ config.workers, worker.program.isDone = true

end Config

/-! ## What one step can do -/

section

variable [DecidableEq K] {S : Service K V Q N Time}

/-- The outcomes of letting the worker at `index` execute its next operation. -/
inductive Move (config : Config S) (index : Nat) (call : S.Call) :
    Program K V Q N S.Result → Config S → Prop
  | get (key : K) (next : Option (V × ETag) → Program K V Q N S.Result) :
      Move config index call (.get key next)
        (config.resume index call (next (config.store.object key)))
  | written (key : K) (value : V) (condition : Condition)
      (next : Bool → Program K V Q N S.Result)
      (admitted : config.store.admits key condition = true) :
      Move config index call (.put key value condition next)
        (config.commit index call key (config.store.put key value) (next true))
  | refused (key : K) (value : V) (condition : Condition)
      (next : Bool → Program K V Q N S.Result)
      (rejected : config.store.admits key condition = false) :
      Move config index call (.put key value condition next)
        (config.resume index call (next false))
  | deleted (key : K) (next : Program K V Q N S.Result) :
      Move config index call (.delete key next)
        (config.commit index call key (config.store.delete key) next)
  | answered (query : Q) (next : Bool → Program K V Q N S.Result) (reply : Bool) :
      Move config index call (.ask query next) (config.resume index call (next reply))
  | noted (message : N) (next : Program K V Q N S.Result) :
      Move config index call (.note message next) (config.resume index call next)

variable {after : Config S} {index : Nat} {call : S.Call} {reply : Bool}

theorem Config.advance_move {config : Config S} {program : Program K V Q N S.Result}
    (advanced : config.advance index call reply program = some after) :
    Move config index call program after := by
  cases program with
  | done result => cases advanced
  | get key next => cases advanced; exact .get key next
  | put key value condition next =>
      cases admitted : config.store.admits key condition with
      | true =>
          simp only [Config.advance, admitted, if_true, Option.some.injEq] at advanced
          subst advanced
          exact .written key value condition next admitted
      | false =>
          simp only [Config.advance, admitted, Bool.false_eq_true, if_false,
            Option.some.injEq] at advanced
          subst advanced
          exact .refused key value condition next admitted
  | delete key next => cases advanced; exact .deleted key next
  | ask query next => cases advanced; exact .answered query next reply
  | note message next => cases advanced; exact .noted message next

variable [LinearOrder Time]

theorem Config.step_tick {config : Config S} {now : Time}
    (stepped : config.step (.tick now) = some after) :
    config.clock ≤ now ∧ after = { config with clock := now } := by
  simp only [Config.step] at stepped
  split at stepped
  · next later => exact ⟨later, by cases stepped; rfl⟩
  · cases stepped

theorem Config.step_start {config : Config S} (stepped : config.step (.start call) = some after) :
    S.mayStart config.clock call = true ∧
      after = { config with workers := config.workers ++ [⟨call, S.program call⟩] } := by
  simp only [Config.step] at stepped
  split at stepped
  · next permitted => exact ⟨permitted, by cases stepped; rfl⟩
  · cases stepped

theorem Config.step_run {config : Config S}
    (stepped : config.step (.run index reply) = some after) :
    ∃ worker, config.workers[index]? = some worker ∧
      Move config index worker.call worker.program after := by
  simp only [Config.step] at stepped
  split at stepped
  · cases stepped
  · next worker present => exact ⟨worker, present, Config.advance_move stepped⟩

def Step.started : Step S → Option S.Call
  | .start call => some call
  | _ => none

theorem Config.calls_append_of_step {config : Config S} {step : Step S}
    (stepped : config.step step = some after) :
    after.workers.map Worker.call = config.workers.map Worker.call ++ step.started.toList := by
  cases step with
  | tick now =>
      obtain ⟨_, rfl⟩ := Config.step_tick stepped
      simp [Step.started]
  | start call =>
      obtain ⟨_, rfl⟩ := Config.step_start stepped
      simp [Step.started]
  | run index reply =>
      obtain ⟨⟨call, program⟩, present, moved⟩ := Config.step_run stepped
      have replaced : ∃ next, after.workers = config.workers.set index ⟨call, next⟩ := by
        cases moved <;> exact ⟨_, rfl⟩
      obtain ⟨next, replaced⟩ := replaced
      have same : (config.workers.map Worker.call)[index]? = some call := by simp [present]
      obtain ⟨_, here⟩ := List.getElem?_eq_some_iff.mp same
      simp only [Step.started, Option.toList_none, List.append_nil, replaced, List.map_set]
      rw [← here, List.set_getElem_self]

theorem Config.calls_of_step (holds : S.Call → Prop) {config : Config S} {step : Step S}
    (old : ∀ worker ∈ config.workers, holds worker.call)
    (started : ∀ call, step = .start call → holds call)
    (stepped : config.step step = some after) : ∀ worker ∈ after.workers, holds worker.call := by
  intro worker member
  have called := List.mem_map_of_mem (f := Worker.call) member
  rw [Config.calls_append_of_step stepped] at called
  rcases List.mem_append.mp called with earlier | new
  · obtain ⟨previous, present, same⟩ := List.mem_map.mp earlier
    exact same ▸ old previous present
  · cases step with
    | start call =>
        rw [List.mem_singleton.mp new]
        exact started call rfl
    | _ => cases new

/-! ## Runs -/

/-- A run all of whose steps satisfy `allowed` in the state they start from. -/
inductive Run (allowed : Config S → Step S → Prop) (initial : Config S) : Config S → Prop
  | refl : Run allowed initial initial
  | step {config after : Config S} (run : Run allowed initial config) (step : Step S)
      (permitted : allowed config step) (stepped : config.step step = some after) :
      Run allowed initial after

/-- Runs without a restriction on their steps. -/
abbrev Reachable (initial config : Config S) : Prop := Run (fun _ _ => True) initial config

variable {initial config : Config S} {allowed more : Config S → Step S → Prop}

/-- The steps of a run may be judged with what holds in every state of it. -/
theorem Run.strengthen (run : Run allowed initial config)
    (implies : ∀ config step, Run allowed initial config → allowed config step →
      more config step) :
    Run more initial config := by
  induction run with
  | refl => exact .refl
  | step run step permitted stepped induction =>
      exact .step induction step (implies _ _ run permitted) stepped

theorem Run.weaken (run : Run allowed initial config)
    (implies : ∀ config step, allowed config step → more config step) :
    Run more initial config :=
  run.strengthen fun config step _ => implies config step

theorem Run.reachable (run : Run allowed initial config) : Reachable initial config :=
  run.weaken fun _ _ _ => trivial

/-- The induction principle of safety proofs: what holds initially and is kept
by every permitted step holds in every state of every run. -/
theorem Run.invariant (holds : Config S → Prop) (base : holds initial)
    (kept : ∀ config step after, Run allowed initial config → holds config →
      allowed config step → config.step step = some after → holds after)
    (run : Run allowed initial config) : holds config := by
  induction run with
  | refl => exact base
  | step run step permitted stepped induction =>
      exact kept _ step _ run induction permitted stepped

variable {permits : Config S → Step S → Bool} {schedule : List (Step S)}

theorem Run.of_execute (executed : initial.execute permits schedule = some config) :
    Run (fun config step => permits config step = true) initial config := by
  suffices extended : ∀ middle, Run (fun config step => permits config step = true) initial middle →
      middle.execute permits schedule = some config →
      Run (fun config step => permits config step = true) initial config from
    extended initial .refl executed
  clear executed
  induction schedule with
  | nil =>
      intro middle run executed
      cases executed
      exact run
  | cons step rest induction =>
      intro middle run executed
      rw [Config.execute] at executed
      split at executed
      · next permitted =>
          cases stepped : middle.step step with
          | none => simp [stepped] at executed
          | some next =>
              simp only [stepped, Option.bind_some] at executed
              exact induction next (.step run step permitted stepped) executed
      · cases executed

theorem Config.calls_of_execute (executed : initial.execute permits schedule = some config) :
    config.workers.map Worker.call =
      initial.workers.map Worker.call ++ schedule.filterMap Step.started := by
  induction schedule generalizing initial with
  | nil =>
      cases executed
      simp
  | cons step rest induction =>
      rw [Config.execute] at executed
      split at executed
      · cases stepped : initial.step step with
        | none => simp [stepped] at executed
        | some next =>
            simp only [stepped, Option.bind_some] at executed
            rw [induction executed, Config.calls_append_of_step stepped, List.filterMap_cons]
            cases step <;> simp [Step.started]
      · cases executed

theorem Reachable.of_steps
    (executed : initial.steps schedule = some config) : Reachable initial config :=
  (Run.of_execute executed).reachable

end

end CityPods.Foundation
