import CityPods.Foundation.Dict

/-! # Computations with a state

Computations that carry a state and can throw: what they return, when they do
not throw, and when one mirrors the other. Remembering a result mirrors
computing it anew.
-/

namespace CityPods.Foundation

variable {σ τ ε α β κ ν : Type}

namespace Stateful

def Returns (invariant : σ → Prop) (property : α → Prop) (run : StateT σ (Except ε) α) : Prop :=
  ∀ ⦃before value after⦄, invariant before → run.run before = .ok (value, after) →
    property value ∧ invariant after

/-- No state makes it throw. -/
def Succeeds (run : StateT σ (Except ε) α) : Prop :=
  ∀ before, ∃ value after, run.run before = .ok (value, after)

section

variable {invariant : σ → Prop} {property : α → Prop} {later : β → Prop}
  {run : StateT σ (Except ε) α} {next : α → StateT σ (Except ε) β}

theorem returns_pure {value : α} (holds : property value) :
    Returns invariant property (pure value : StateT σ (Except ε) α) := by
  intro before other after kept ran
  rw [StateT.run_pure] at ran
  cases ran
  exact ⟨holds, kept⟩

theorem returns_lift {step : Except ε α} (holds : ∀ value, step = .ok value → property value) :
    Returns invariant property (StateT.lift step : StateT σ (Except ε) α) := by
  intro before value after kept ran
  cases step with
  | error thrown => cases ran
  | ok result =>
      cases ran
      exact ⟨holds _ rfl, kept⟩

theorem Returns.bind (first : Returns invariant property run)
    (second : ∀ value, property value → Returns invariant later (next value)) :
    Returns invariant later (run >>= next) := by
  intro before value after kept ran
  rw [StateT.run_bind] at ran
  cases started : run.run before with
  | error thrown =>
      rw [started] at ran
      cases ran
  | ok result =>
      rw [started] at ran
      have between := first kept started
      exact second result.1 between.1 between.2 ran

theorem succeeds_pure (value : α) : Succeeds (pure value : StateT σ (Except ε) α) :=
  fun before => ⟨value, before, rfl⟩

theorem Succeeds.bind (first : Succeeds run) (second : ∀ value, Succeeds (next value)) :
    Succeeds (run >>= next) := by
  intro before
  obtain ⟨value, between, started⟩ := first before
  obtain ⟨result, after, ended⟩ := second value between
  refine ⟨result, after, ?_⟩
  rw [StateT.run_bind, started]
  exact ended

theorem lift_ok_bind (value : α) : (StateT.lift (.ok value) >>= next) = next value := rfl

end

/-- Both throw the same, or both return the same and leave related states. -/
inductive Ends (related : σ → τ → Prop) : Except ε (α × σ) → Except ε (α × τ) → Prop
  | throws (thrown : ε) : Ends related (.error thrown) (.error thrown)
  | returns (value : α) {first : σ} {second : τ} (kept : related first second) :
      Ends related (.ok (value, first)) (.ok (value, second))

def Mirrors (related : σ → τ → Prop) (first : StateT σ (Except ε) α)
    (second : StateT τ (Except ε) α) : Prop :=
  ∀ ⦃before other⦄, related before other → Ends related (first.run before) (second.run other)

section

variable {related : σ → τ → Prop}

theorem mirrors_pure (value : α) :
    Mirrors related (pure value : StateT σ (Except ε) α) (pure value : StateT τ (Except ε) α) :=
  fun _ _ same => .returns value same

variable {first : StateT σ (Except ε) α} {second : StateT τ (Except ε) α}

theorem Mirrors.bind {next : α → StateT σ (Except ε) β} {other : α → StateT τ (Except ε) β}
    (start : Mirrors related first second) (later : ∀ value, Mirrors related (next value) (other value)) :
    Mirrors related (first >>= next) (second >>= other) := by
  intro before state same
  rw [StateT.run_bind, StateT.run_bind]
  have ends := start same
  generalize first.run before = ran at ends ⊢
  generalize second.run state = rerun at ends ⊢
  cases ends with
  | throws thrown => exact .throws thrown
  | returns value kept => exact later value kept

theorem Mirrors.ite {condition : Prop} [Decidable condition]
    {third : StateT σ (Except ε) α} {fourth : StateT τ (Except ε) α}
    (holds : Mirrors related first second) (fails : Mirrors related third fourth) :
    Mirrors related (if condition then first else third) (if condition then second else fourth) := by
  split
  · exact holds
  · exact fails

end

theorem Mirrors.returns {invariant : σ → Prop} {run : StateT σ (Except ε) α} {value : α}
    (mirrors : Mirrors (fun state (_ : Unit) => invariant state) run (pure value)) :
    Returns invariant (fun result => result = value) run := by
  intro before result after kept ran
  have ends := @mirrors before () kept
  rw [ran, StateT.run_pure] at ends
  cases ends with
  | returns _ still => exact ⟨rfl, still⟩

section

variable [DecidableEq κ]

def remembered (key : κ) (value : ν) : StateT (Dict κ ν) (Except ε) ν := fun memory =>
  match memory.get? key with
  | some known => .ok (known, memory)
  | none => .ok (value, memory.set key value)

def Recalls (answer : κ → ν) (memory : Dict κ ν) : Prop :=
  ∀ key value, memory.get? key = some value → value = answer key

variable {answer : κ → ν} {key : κ} {value : ν}

theorem recalls_nil : Recalls answer [] := fun _ _ found => nomatch found

theorem Recalls.set {memory : Dict κ ν} (recalls : Recalls answer memory)
    (correct : value = answer key) : Recalls answer (memory.set key value) := by
  intro other known found
  rw [Dict.get?_set] at found
  split at found
  · next same => rw [← same, ← correct, ← Option.some.inj found]
  · exact recalls other known found

theorem succeeds_remembered (key : κ) (value : ν) :
    Succeeds (remembered key value : StateT (Dict κ ν) (Except ε) ν) := by
  intro memory
  change ∃ result after, remembered key value memory = _
  rw [remembered]
  cases memory.get? key with
  | some known => exact ⟨known, memory, rfl⟩
  | none => exact ⟨value, memory.set key value, rfl⟩

theorem returns_remembered {property : ν → Prop} (holds : property value) :
    Returns (fun memory => ∀ key known, memory.get? key = some known → property known) property
      (remembered key value : StateT (Dict κ ν) (Except ε) ν) := by
  intro memory result after kept ran
  change remembered key value memory = _ at ran
  rw [remembered] at ran
  cases found : memory.get? key with
  | some known =>
      rw [found] at ran
      cases ran
      exact ⟨kept key _ found, kept⟩
  | none =>
      rw [found] at ran
      cases ran
      refine ⟨holds, fun other known stored => ?_⟩
      rw [Dict.get?_set] at stored
      split at stored
      · rwa [← Option.some.inj stored]
      · exact kept other known stored

theorem mirrors_remembered (correct : value = answer key) :
    Mirrors (fun memory (_ : Unit) => Recalls answer memory)
      (remembered key value : StateT (Dict κ ν) (Except ε) ν) (pure value) := by
  intro memory _ recalls
  change Ends _ (remembered key value memory) _
  rw [remembered]
  cases found : memory.get? key with
  | some known =>
      have same : known = value := (recalls key known found).trans correct.symm
      simp only [same]
      exact .returns value recalls
  | none => exact .returns value (recalls.set correct)

end

end Stateful

end CityPods.Foundation
