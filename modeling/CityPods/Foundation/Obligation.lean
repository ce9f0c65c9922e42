import CityPods.Foundation.Interleaving

/-! # Writes a program still owes

A promise that is kept by a later write: the rest of the program cannot end
without storing a settling value, unless it reports an excuse.
-/

namespace CityPods.Foundation

namespace Program

/-- Every completion of the program stores a settling value or reports an
excusing message. -/
def Owes (settles : K → V → Prop) (excuses : N → Prop) : Program K V Q N Result → Prop
  | .done _ => False
  | .get _ next => ∀ reply, (next reply).Owes settles excuses
  | .put key value _ next =>
      (settles key value ∨ (next true).Owes settles excuses) ∧ (next false).Owes settles excuses
  | .delete _ next => next.Owes settles excuses
  | .ask _ next => ∀ reply, (next reply).Owes settles excuses
  | .note message next => excuses message ∨ next.Owes settles excuses

variable {settles : K → V → Prop} {excuses : N → Prop}

theorem Owes.bind {program : Program K V Q N α} (owes : program.Owes settles excuses)
    (rest : α → Program K V Q N β) : (program.bind rest).Owes settles excuses := by
  induction program with
  | done result => exact owes.elim
  | get key next induction => exact fun reply => induction reply (owes reply)
  | put key value condition next induction =>
      exact ⟨owes.1.imp_right (induction true), induction false owes.2⟩
  | delete key next induction => exact induction owes
  | ask query next induction => exact fun reply => induction reply (owes reply)
  | note message next induction => exact Or.imp_right induction owes

end Program

variable {S : Service K V Q N Time} {settles : K → V → Prop} {excuses : N → Prop}

def Config.Owed (settles : K → V → Prop) (excuses : N → Prop) (config : Config S) : Prop :=
  ∃ (index : Nat) (worker : Worker S), config.workers[index]? = some worker ∧
    worker.program.Owes settles excuses

theorem Config.Quiescent.not_owed {config : Config S} (quiescent : config.Quiescent) :
    ¬ config.Owed settles excuses := by
  rintro ⟨index, worker, present, owes⟩
  have done := quiescent worker (List.mem_of_getElem? present)
  cases running : worker.program with
  | done result => rwa [running] at owes
  | _ => rw [running] at done; cases done

theorem Config.Owed.of_set {config : Config S} {index : Nat} {worker : Worker S}
    {replacement : Worker S} {workers : List (Worker S)}
    (owed : config.Owed settles excuses) (present : config.workers[index]? = some worker)
    (replaced : workers = config.workers.set index replacement)
    (carried : worker.program.Owes settles excuses →
      replacement.program.Owes settles excuses) :
    ∃ (other : Nat) (otherWorker : Worker S), workers[other]? = some otherWorker ∧
      otherWorker.program.Owes settles excuses := by
  subst replaced
  obtain ⟨other, otherWorker, otherPresent, owes⟩ := owed
  by_cases same : index = other
  · subst same
    rw [present] at otherPresent
    cases otherPresent
    obtain ⟨inside, _⟩ := List.getElem?_eq_some_iff.mp present
    exact ⟨index, replacement, by simp [inside], carried owes⟩
  · exact ⟨other, otherWorker, by simpa [same] using otherPresent, owes⟩

section

variable [DecidableEq K] [LinearOrder Time]

def Config.Unexcused (excuses : N → Prop) (config : Config S) : Step S → Prop
  | .run index _ => ∀ worker message next, config.workers[index]? = some worker →
      worker.program = .note message next → ¬ excuses message
  | _ => True

theorem Config.Owed.step {config after : Config S} {step : Step S}
    (owed : config.Owed settles excuses) (unexcused : config.Unexcused excuses step)
    (stepped : config.step step = some after) :
    after.Owed settles excuses ∨
      ∃ key value etag, settles key value ∧ after.store.object key = some (value, etag) := by
  cases step with
  | tick now =>
      obtain ⟨_, rfl⟩ := Config.step_tick stepped
      exact .inl owed
  | start call =>
      obtain ⟨_, rfl⟩ := Config.step_start stepped
      obtain ⟨index, worker, present, owes⟩ := owed
      obtain ⟨inside, _⟩ := List.getElem?_eq_some_iff.mp present
      exact .inl ⟨index, worker, by simpa [List.getElem?_append_left inside] using present, owes⟩
  | run index reply =>
      obtain ⟨⟨call, program⟩, present, moved⟩ := Config.step_run stepped
      cases moved with
      | get key next => exact .inl (owed.of_set present rfl fun owes => owes _)
      | written key value condition next admitted =>
          by_cases settled : settles key value
          · exact .inr ⟨key, value, _, settled, config.store.put_object_same key value⟩
          · exact .inl (owed.of_set present rfl fun owes => owes.1.resolve_left settled)
      | refused key value condition next rejected =>
          exact .inl (owed.of_set present rfl fun owes => owes.2)
      | deleted key next => exact .inl (owed.of_set present rfl fun owes => owes)
      | answered query next reply => exact .inl (owed.of_set present rfl fun owes => owes _)
      | noted message next =>
          exact .inl (owed.of_set present rfl fun owes =>
            owes.resolve_left (unexcused _ message next present rfl))

end

end CityPods.Foundation
