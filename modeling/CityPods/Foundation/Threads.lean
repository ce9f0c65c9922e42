import Mathlib.Data.List.Basic
import Mathlib.Data.List.MinMax

/-! # Threads

Any number of threads that share a state. Each step is one thread's, and moves
the shared state and that thread's own.
-/

namespace CityPods.Foundation

/-- What a thread can do from its own state, in the shared one. -/
structure ThreadSystem (S P A : Type) where
  step : S → P → A → Option (S × P)

namespace Threads

variable {S P A : Type}

structure Config (S P : Type) where
  shared : S
  threads : List P

def Config.count (config : Config S P) (holds : P → Bool) : Nat := config.threads.countP holds

structure Moves (system : ThreadSystem S P A) (config : Config S P) (action : A)
    (before after : P) (next : Config S P) : Prop where
  stepped : system.step config.shared before action = some (next.shared, after)
  placed : ∃ index : Nat, config.threads[index]? = some before ∧
    next.threads = config.threads.set index after

inductive Reachable (system : ThreadSystem S P A) (initial : Config S P) : Config S P → Prop
  | initial : Reachable system initial initial
  | step {config next : Config S P} {action : A} {before after : P}
      (reachable : Reachable system initial config)
      (moves : Moves system config action before after next) : Reachable system initial next

variable {system : ThreadSystem S P A} {initial config next : Config S P} {action : A}
  {before after : P}

theorem Reachable.invariant (holds : Config S P → Prop) (base : holds initial)
    (kept : ∀ {config action before after next}, holds config →
      Moves system config action before after next → holds next)
    (reachable : Reachable system initial config) : holds config := by
  induction reachable with
  | initial => exact base
  | step reachable moves induction => exact kept induction moves

theorem Moves.mem (moves : Moves system config action before after next) :
    before ∈ config.threads := by
  obtain ⟨index, present, _⟩ := moves.placed
  exact List.mem_of_getElem? present

theorem Moves.after_mem (moves : Moves system config action before after next) :
    after ∈ next.threads := by
  obtain ⟨index, present, placed⟩ := moves.placed
  obtain ⟨inside, _⟩ := List.getElem?_eq_some_iff.mp present
  rw [placed]
  exact List.mem_set inside after

variable {thread : P}

theorem Moves.mem_next (moves : Moves system config action before after next)
    (member : thread ∈ next.threads) : thread = after ∨ thread ∈ config.threads := by
  obtain ⟨index, _, placed⟩ := moves.placed
  rw [placed] at member
  exact (List.mem_or_eq_of_mem_set member).symm

theorem Moves.mem_stays (moves : Moves system config action before after next)
    (member : thread ∈ config.threads) : thread = before ∨ thread ∈ next.threads := by
  obtain ⟨index, present, placed⟩ := moves.placed
  obtain ⟨other, inside, found⟩ := List.mem_iff_getElem.mp member
  by_cases same : index = other
  · subst same
    rw [List.getElem?_eq_getElem inside] at present
    exact .inl (found.symm.trans (Option.some.inj present))
  · right
    rw [placed, ← found, ← List.getElem_set_ne same (by simpa using inside)]
    exact List.getElem_mem _

/-- A step moves one thread from one count to another. -/
theorem Moves.count (moves : Moves system config action before after next) (holds : P → Bool) :
    next.count holds + (if holds before then 1 else 0) =
      config.count holds + (if holds after then 1 else 0) := by
  obtain ⟨index, present, placed⟩ := moves.placed
  obtain ⟨inside, found⟩ := List.getElem?_eq_some_iff.mp present
  rw [Config.count, Config.count, placed, List.countP_set inside, found]
  have counted : holds before = true → 0 < config.threads.countP holds := fun true =>
    List.countP_pos_iff.mpr ⟨before, moves.mem, true⟩
  split
  · next true =>
    have := counted true
    omega
  · omega

theorem Config.count_eq_zero {holds : P → Bool} :
    config.count holds = 0 ↔ ∀ thread ∈ config.threads, holds thread = false := by
  simp [Config.count, List.countP_eq_zero]

theorem Config.count_pos {holds : P → Bool} :
    0 < config.count holds ↔ ∃ thread ∈ config.threads, holds thread = true :=
  List.countP_pos_iff

theorem Config.count_of_mem (holds : P → Bool) (member : thread ∈ config.threads) :
    ∃ rest, config.count holds = rest + if holds thread then 1 else 0 := by
  split
  · next true =>
    have counted := Config.count_pos.mpr ⟨thread, member, true⟩
    exact ⟨config.count holds - 1, by omega⟩
  · exact ⟨config.count holds, rfl⟩

/-- Each step that the actions ask of the threads at the indices, in turn. -/
def execute (system : ThreadSystem S P A) (config : Config S P) :
    List (Nat × A) → Option (Config S P)
  | [] => some config
  | (index, action) :: later =>
      config.threads[index]?.bind fun before =>
        (system.step config.shared before action).bind fun stepped =>
          execute system ⟨stepped.1, config.threads.set index stepped.2⟩ later

theorem Reachable.of_execute {actions : List (Nat × A)}
    (executed : execute system initial actions = some config) :
    Reachable system initial config := by
  suffices extended : ∀ middle, Reachable system initial middle →
      execute system middle actions = some config → Reachable system initial config from
    extended initial .initial executed
  clear executed
  induction actions with
  | nil =>
      intro middle reachable executed
      cases executed
      exact reachable
  | cons entry later induction =>
      intro middle reachable executed
      obtain ⟨index, action⟩ := entry
      obtain ⟨before, present, rest⟩ := Option.bind_eq_some_iff.mp executed
      obtain ⟨stepped, moved, rest⟩ := Option.bind_eq_some_iff.mp rest
      exact induction _ (.step reachable ⟨moved, index, present, rfl⟩) rest

/-- Where each thread waits only for what is above all that it holds, something that is
waited for is held by no thread that waits. -/
theorem exists_free_wait {R : Type} [LinearOrder R] {threads : List P} {waits : P → Option R}
    {holds : P → R → Prop} (ordered : ∀ thread ∈ threads, ∀ wanted, waits thread = some wanted →
      ∀ held, holds thread held → held < wanted)
    (member : thread ∈ threads) (waiting : (waits thread).isSome = true) :
    ∃ top ∈ threads, ∃ wanted, waits top = some wanted ∧
      ∀ other ∈ threads, holds other wanted → waits other = none := by
  let level : P → WithBot R := waits
  cases found : threads.argmax level with
  | none =>
      rw [List.argmax_eq_none.mp found] at member
      cases member
  | some top =>
      have highest {other : P} (also : other ∈ threads) : level other ≤ level top :=
        List.le_of_mem_argmax also found
      obtain ⟨lower, same⟩ := Option.isSome_iff_exists.mp waiting
      obtain ⟨wanted, waited, _⟩ :=
        WithBot.coe_le_iff.mp ((congrArg (· ≤ level top) same).mp (highest member))
      refine ⟨top, List.argmax_mem found, wanted, waited, fun other also held => ?_⟩
      by_contra busy
      obtain ⟨above, blocked⟩ := Option.ne_none_iff_exists'.mp busy
      have less : (wanted : WithBot R) < (above : WithBot R) :=
        WithBot.coe_lt_coe.mpr (ordered other also above blocked wanted held)
      have more := highest also
      rw [show level other = (above : WithBot R) from blocked,
        show level top = (wanted : WithBot R) from waited] at more
      exact absurd (less.trans_le more) (lt_irrefl _)

end Threads

end CityPods.Foundation
