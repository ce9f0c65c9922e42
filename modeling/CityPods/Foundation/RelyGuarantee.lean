import CityPods.Foundation.Tasks

/-! # Rely and guarantee

A call that shares its world with others: what it may count on of the steps of
the others while it waits for an operation, what it assumes of the operation's
outcome, what it guarantees of its own steps, and what it promises of its result. Once every call keeps its guarantee under its rely, and the
guarantees of the others imply each rely, every run keeps all of them.
-/

namespace CityPods.Foundation

/-- What a call counts on while it waits for an operation, what it assumes when
the operation is performed, and what it guarantees of the step. -/
structure Bargain {I : Interface} (W : World I) where
  rely : Option I.Op → W.State → W.State → Prop
  assumes : I.Op → W.State → W.Choice → Prop
  guarantee : W.State → W.State → Prop
  rely_refl : ∀ awaited state, rely awaited state state
  rely_trans : ∀ {awaited first second third}, rely awaited first second →
    rely awaited second third → rely awaited first third

variable {I : Interface} {α β : Type}

namespace Task

variable (W : World I) (bargain : Bargain W)

/-- Whatever the others do, the task keeps the guarantee in every step and its
result keeps the promise. -/
def Safe (promise : α → W.State → Prop) : Task I α → W.State → Prop
  | .done result, state => ∀ later, bargain.rely none state later → promise result later
  | .perform op next, state => ∀ later, bargain.rely (some op) state later →
      ∀ choice reply after, bargain.assumes op later choice →
        W.answer later op choice = some (reply, after) →
          bargain.guarantee later after ∧ (next reply).Safe promise after

variable {W bargain} {promise : α → W.State → Prop} {state : W.State} {task : Task I α}

theorem Safe.later {last : W.State} (safe : task.Safe W bargain promise state)
    (passed : bargain.rely task.asks state last) : task.Safe W bargain promise last := by
  cases task with
  | done result => exact fun later more => safe later (bargain.rely_trans passed more)
  | perform op next => exact fun later more => safe later (bargain.rely_trans passed more)

theorem Safe.result {result : α} (safe : (Task.done result).Safe W bargain promise state) :
    promise result state :=
  safe state (bargain.rely_refl none state)

variable {promised : β → W.State → Prop}

theorem Safe.bind {rest : α → Task I β} (safe : task.Safe W bargain promise state)
    (continued : ∀ result later, promise result later →
      (rest result).Safe W bargain promised later) :
    (task.bind rest).Safe W bargain promised state := by
  induction task generalizing state with
  | done result => exact continued result state safe.result
  | perform op next induction =>
      intro later passed choice reply after assumed answered
      have kept := safe later passed choice reply after assumed answered
      exact ⟨kept.1, induction reply kept.2⟩

theorem Safe.map {function : α → β}
    (safe : task.Safe W bargain (fun result => promised (function result)) state) :
    (task.bind fun result => .done (function result)).Safe W bargain promised state := by
  induction task generalizing state with
  | done result => exact safe
  | perform op next induction =>
      intro later passed choice reply after assumed answered
      have kept := safe later passed choice reply after assumed answered
      exact ⟨kept.1, induction reply kept.2⟩

theorem Safe.weaken {weaker : α → W.State → Prop} (safe : task.Safe W bargain promise state)
    (implies : ∀ result later, promise result later → weaker result later) :
    task.Safe W bargain weaker state := by
  induction task generalizing state with
  | done result => exact fun later passed => implies result later (safe later passed)
  | perform op next induction =>
      intro later passed choice reply after assumed answered
      have kept := safe later passed choice reply after assumed answered
      exact ⟨kept.1, induction reply kept.2⟩

/-- What every step of anyone keeps to, holds from the start to the end. -/
theorem Safe.frame {relation : W.State → W.State → Prop} (safe : task.Safe W bargain promise state)
    (trans : ∀ {first second third}, relation first second → relation second third →
      relation first third)
    (relied : ∀ {awaited before after}, bargain.rely awaited before after → relation before after)
    (guaranteed : ∀ {before after}, bargain.guarantee before after → relation before after) :
    task.Safe W bargain (fun result later => promise result later ∧ relation state later) state := by
  suffices framed : ∀ base, relation base state → task.Safe W bargain
      (fun result later => promise result later ∧ relation base later) state from
    framed state (relied (bargain.rely_refl none state))
  induction task generalizing state with
  | done result =>
      exact fun base reached later passed => ⟨safe later passed, trans reached (relied passed)⟩
  | perform op next induction =>
      intro base reached later passed choice reply after assumed answered
      have kept := safe later passed choice reply after assumed answered
      refine ⟨kept.1, induction reply kept.2 base ?_⟩
      exact trans (trans reached (relied passed)) (guaranteed kept.1)

theorem Safe.guarantee_less {other : Bargain W} (safe : task.Safe W bargain promise state)
    (relied : ∀ {awaited before after}, other.rely awaited before after →
      bargain.rely awaited before after)
    (assumed : ∀ {op before choice}, other.assumes op before choice →
      bargain.assumes op before choice)
    (guaranteed : ∀ {before after}, bargain.guarantee before after → other.guarantee before after) :
    task.Safe W other promise state := by
  induction task generalizing state with
  | done result => exact fun later passed => safe later (relied passed)
  | perform op next induction =>
      intro later passed choice reply after holds answered
      have kept := safe later (relied passed) choice reply after (assumed holds) answered
      exact ⟨guaranteed kept.1, induction reply kept.2⟩

end Task

namespace Tasks

variable {W : World I}

structure Conduct (A : Activity W) where
  bargain : A.Call → Bargain W
  promise : A.Call → W.State → A.Result → W.State → Prop

variable {A : Activity W} (conduct : Conduct A) (allowed : Config A → Event A → Prop)
  (initial : Config A)

def Conduct.Settled (worker : Worker A) : Prop :=
  ∃ result, worker.task = .done result ∧
    ∀ start state, conduct.promise worker.call start result state

def Conduct.Kept (config : Config A) : Prop :=
  ∀ worker ∈ config.workers, ∃ start : Config A,
    Run allowed initial start ∧ allowed start (.start worker.call) ∧ Run allowed start config ∧
      worker.task.Safe W (conduct.bargain worker.call)
        (conduct.promise worker.call start.state) config.state

/-- What the calls owe each other for the bargains to hold in every run. -/
structure Conduct.Sound : Prop where
  base : initial.workers = []
  drifted : ∀ config choice after, Run allowed initial config → allowed config (.drift choice) →
    W.drift config.state choice = some after → ∀ worker ∈ config.workers,
      (conduct.bargain worker.call).rely worker.task.asks config.state after ∨
        conduct.Settled worker
  started : ∀ config call, Run allowed initial config → allowed config (.start call) →
    A.mayStart config.state call = true →
      (A.task call).Safe W (conduct.bargain call) (conduct.promise call config.state) config.state
  assumed : ∀ (config : Config A) (index : Nat) (choice : W.Choice) (call : A.Call) (op : I.Op)
    (next : I.Reply op → Task I A.Result), Run allowed initial config →
      allowed config (.run index choice) →
      config.workers[index]? = some ⟨call, .perform op next⟩ →
        (conduct.bargain call).assumes op config.state choice
  apart : ∀ config, Run allowed initial config → conduct.Kept allowed initial config →
    ∀ (index other : Nat) (choice : W.Choice) (call : A.Call) (op : I.Op)
      (next : I.Reply op → Task I A.Result) (worker : Worker A) (reply : I.Reply op)
      (after : W.State), index ≠ other → allowed config (.run index choice) →
      config.workers[index]? = some ⟨call, .perform op next⟩ →
      config.workers[other]? = some worker →
      W.answer config.state op choice = some (reply, after) →
      (conduct.bargain call).guarantee config.state after →
        (conduct.bargain worker.call).rely worker.task.asks config.state after ∨
          conduct.Settled worker

variable {conduct allowed initial} {config after : Config A} {event : Event A}

theorem Conduct.Settled.safe {worker : Worker A} (settled : conduct.Settled worker)
    (bargain : Bargain W) (start state : W.State) :
    worker.task.Safe W bargain (conduct.promise worker.call start) state := by
  obtain ⟨result, ended, promised⟩ := settled
  rw [ended]
  exact fun later _ => promised start later

variable {call : A.Call}

/-- A worker that is about to perform an operation guarantees its step and
stays safe. -/
theorem Conduct.Kept.performs (sound : conduct.Sound allowed initial)
    (run : Run allowed initial config) (kept : conduct.Kept allowed initial config) {index : Nat}
    {choice : W.Choice} (permitted : allowed config (.run index choice))
    {op : I.Op} {next : I.Reply op → Task I A.Result}
    (present : config.workers[index]? = some ⟨call, .perform op next⟩)
    {reply : I.Reply op} {state : W.State}
    (answered : W.answer config.state op choice = some (reply, state)) :
    (conduct.bargain call).guarantee config.state state ∧ ∃ start : Config A,
      Run allowed initial start ∧ allowed start (.start call) ∧ Run allowed start config ∧
        (next reply).Safe W (conduct.bargain call) (conduct.promise call start.state) state := by
  obtain ⟨start, before, granted, since, safe⟩ := kept _ (List.mem_of_getElem? present)
  have assumed := sound.assumed config index choice call op next run permitted present
  have moved := safe _ ((conduct.bargain call).rely_refl _ _) choice reply state assumed answered
  exact ⟨moved.1, start, before, granted, since, moved.2⟩

theorem Conduct.Kept.step (sound : conduct.Sound allowed initial)
    (run : Run allowed initial config) (kept : conduct.Kept allowed initial config)
    (permitted : allowed config event) (stepped : config.step event = some after) :
    conduct.Kept allowed initial after := by
  intro worker member
  cases Config.step_moves stepped with
  | drift choice state drifted =>
      obtain ⟨start, before, granted, since, safe⟩ := kept worker member
      refine ⟨start, before, granted, .step since _ permitted stepped, ?_⟩
      rcases sound.drifted config choice state run permitted drifted worker member with
        passed | settled
      · exact safe.later passed
      · exact settled.safe _ start.state _
  | start call mayStart =>
      rcases List.mem_append.mp member with earlier | new
      · obtain ⟨start, before, granted, since, safe⟩ := kept worker earlier
        exact ⟨start, before, granted, .step since _ permitted stepped, safe⟩
      · cases List.mem_singleton.mp new
        exact ⟨config, run, permitted, .step .refl _ permitted stepped,
          sound.started config call run permitted mayStart⟩
  | run index choice call op next present reply state answered =>
      have moved := kept.performs sound run permitted present answered
      rcases mem_resume member with rfl | ⟨other, different, found⟩
      · obtain ⟨start, before, granted, since, safe⟩ := moved.2
        exact ⟨start, before, granted, .step since _ permitted stepped, safe⟩
      · obtain ⟨start, before, granted, since, safe⟩ := kept worker (List.mem_of_getElem? found)
        refine ⟨start, before, granted, .step since _ permitted stepped, ?_⟩
        rcases sound.apart config run kept index other choice call op next worker reply state
          different.symm permitted present found answered moved.1 with passed | settled
        · exact safe.later passed
        · exact settled.safe _ start.state _
  | kill index =>
      obtain ⟨start, before, granted, since, safe⟩ := kept worker (List.mem_of_mem_eraseIdx member)
      exact ⟨start, before, granted, .step since _ permitted stepped, safe⟩

theorem Conduct.Sound.kept (sound : conduct.Sound allowed initial)
    (run : Run allowed initial config) : conduct.Kept allowed initial config := by
  induction run with
  | refl =>
      intro worker member
      rw [sound.base] at member
      cases member
  | step run event permitted stepped induction => exact induction.step sound run permitted stepped

theorem Conduct.Sound.promised (sound : conduct.Sound allowed initial)
    (run : Run allowed initial config) {result : A.Result}
    (ended : (⟨call, .done result⟩ : Worker A) ∈ config.workers) : ∃ start : Config A,
      Run allowed initial start ∧ allowed start (.start call) ∧ Run allowed start config ∧
        conduct.promise call start.state result config.state := by
  obtain ⟨start, before, granted, since, safe⟩ := sound.kept run _ ended
  exact ⟨start, before, granted, since, safe.result⟩

end Tasks

end CityPods.Foundation
