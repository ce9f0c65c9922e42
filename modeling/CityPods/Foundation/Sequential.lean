import CityPods.Foundation.Program

/-! # Running a program alone

The meaning of a storage program when no other program touches the store. Each
question has one answer, so programs label the questions they ask twice.
-/

namespace CityPods.Foundation

namespace Program

section

variable [DecidableEq K]

def exec (answer : Q → Bool) : Program K V Q N Result → Store K V → Result × Store K V
  | .done result, store => (result, store)
  | .get key next, store => (next (store.object key)).exec answer store
  | .put key value condition next, store =>
      if store.admits key condition then
        (next true).exec answer (store.put key value)
      else
        (next false).exec answer store
  | .delete key next, store => next.exec answer (store.delete key)
  | .ask query next, store => (next (answer query)).exec answer store
  | .note _ next, store => next.exec answer store

variable (answer : Q → Bool) (store : Store K V)

@[simp] theorem exec_done (result : Result) :
    (Program.done result : Program K V Q N Result).exec answer store = (result, store) := rfl

@[simp] theorem exec_get (key : K) (next : Option (V × ETag) → Program K V Q N Result) :
    (Program.get key next).exec answer store =
      (next (store.object key)).exec answer store := rfl

@[simp] theorem exec_ask (query : Q) (next : Bool → Program K V Q N Result) :
    (Program.ask query next).exec answer store = (next (answer query)).exec answer store := rfl

@[simp] theorem exec_delete (key : K) (next : Program K V Q N Result) :
    (Program.delete key next).exec answer store = next.exec answer (store.delete key) := rfl

@[simp] theorem exec_put_always (key : K) (value : V) (next : Bool → Program K V Q N Result) :
    (Program.put key value .always next).exec answer store =
      (next true).exec answer (store.put key value) := rfl

/-- Alone, a write over the object just read succeeds. -/
@[simp] theorem exec_put_read (key : K) (value : V) (next : Bool → Program K V Q N Result) :
    (Program.put key value (writeCondition ((store.object key).map Prod.snd)) next).exec answer
      store = (next true).exec answer (store.put key value) := by
  have admitted :
      store.admits key (writeCondition ((store.object key).map Prod.snd)) = true := by
    cases stored : store.object key <;> simp [writeCondition, Store.admits, stored]
  rw [exec, if_pos admitted]

theorem exec_bind (program : Program K V Q N α) (rest : α → Program K V Q N β) :
    (program.bind rest).exec answer store =
      (rest (program.exec answer store).1).exec answer (program.exec answer store).2 := by
  induction program generalizing store with
  | done result => rfl
  | get key next induction => exact induction _ store
  | put key value condition next induction =>
      simp only [bind_put, exec]
      split
      · exact induction true _
      · exact induction false _
  | delete key next induction => exact induction _
  | ask query next induction => exact induction _ store
  | note message next induction => exact induction store

/-- What a program reports as it runs alone. -/
def notes (answer : Q → Bool) : Program K V Q N Result → Store K V → List N
  | .done _, _ => []
  | .get key next, store => (next (store.object key)).notes answer store
  | .put key value condition next, store =>
      if store.admits key condition then
        (next true).notes answer (store.put key value)
      else
        (next false).notes answer store
  | .delete key next, store => next.notes answer (store.delete key)
  | .ask query next, store => (next (answer query)).notes answer store
  | .note message next, store => message :: next.notes answer store

theorem notes_bind (program : Program K V Q N α) (rest : α → Program K V Q N β) :
    (program.bind rest).notes answer store = program.notes answer store ++
      (rest (program.exec answer store).1).notes answer (program.exec answer store).2 := by
  induction program generalizing store with
  | done result => rfl
  | get key next induction => exact induction _ store
  | put key value condition next induction =>
      simp only [bind_put, notes, exec]
      split
      · exact induction true _
      · exact induction false _
  | delete key next induction => exact induction _
  | ask query next induction => exact induction _ store
  | note message next induction => exact congrArg (message :: ·) (induction store)

end

end Program

end CityPods.Foundation
