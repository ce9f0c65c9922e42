import Mathlib.Logic.Function.Basic

/-! # Storage programs

Sequential code that talks to a shared object store, as a tree of its storage
operations. A tree keeps every request the code can make and what it does with
every possible reply, so the same tree can be run alone or one operation at a
time between the operations of other programs.
-/

namespace CityPods.Foundation

abbrev ETag := Nat

/-- The precondition of a write. -/
inductive Condition
  | always
  | ifNoneMatch
  | ifMatch (etag : ETag)
  deriving DecidableEq

/-- The condition of a write over an object last read with `etag`. -/
def writeCondition : Option ETag → Condition
  | none => .ifNoneMatch
  | some etag => .ifMatch etag

/-- Every successful write takes the next unused ETag. -/
structure Store (K V : Type) where
  object : K → Option (V × ETag)
  nextETag : ETag

namespace Store

def empty : Store K V where
  object _ := none
  nextETag := 0

/-- Whether a write under this precondition succeeds now. -/
def admits (store : Store K V) (key : K) : Condition → Bool
  | .always => true
  | .ifNoneMatch => (store.object key).isNone
  | .ifMatch etag => (store.object key).any fun stored => stored.2 == etag

def put [DecidableEq K] (store : Store K V) (key : K) (value : V) : Store K V where
  object := Function.update store.object key (some (value, store.nextETag))
  nextETag := store.nextETag + 1

def delete [DecidableEq K] (store : Store K V) (key : K) : Store K V where
  object := Function.update store.object key none
  nextETag := store.nextETag

@[simp] theorem put_object_same [DecidableEq K] (store : Store K V) (key : K) (value : V) :
    (store.put key value).object key = some (value, store.nextETag) := by
  simp [put]

theorem put_object_other [DecidableEq K] (store : Store K V) {key other : K}
    (value : V) (different : other ≠ key) :
    (store.put key value).object other = store.object other := by
  simp [put, different]

@[simp] theorem put_nextETag [DecidableEq K] (store : Store K V) (key : K)
    (value : V) : (store.put key value).nextETag = store.nextETag + 1 := rfl

@[simp] theorem delete_object_same [DecidableEq K] (store : Store K V) (key : K) :
    (store.delete key).object key = none := by
  simp [delete]

theorem delete_object_other [DecidableEq K] (store : Store K V) {key other : K}
    (different : other ≠ key) : (store.delete key).object other = store.object other := by
  simp [delete, different]

@[simp] theorem delete_nextETag [DecidableEq K] (store : Store K V) (key : K) :
    (store.delete key).nextETag = store.nextETag := rfl

/-- No object carries an ETag that a later write could issue again. -/
def Fresh (store : Store K V) : Prop :=
  ∀ key value etag, store.object key = some (value, etag) → etag < store.nextETag

theorem empty_fresh : (Store.empty : Store K V).Fresh := by
  intro key value etag stored
  cases stored

theorem Fresh.put [DecidableEq K] {store : Store K V} (fresh : store.Fresh) (key : K) (value : V) :
    (store.put key value).Fresh := by
  intro other stored etag present
  by_cases same : other = key
  · rw [same, put_object_same] at present
    cases present
    exact Nat.lt_succ_self _
  · rw [put_object_other store value same] at present
    exact Nat.lt_succ_of_lt (fresh other stored etag present)

end Store

/-- A program over keys `K` and stored values `V` that puts questions `Q` to code
outside the store and reports messages `N`. `put` continues with whether its
precondition held; `ask` continues with an answer the environment chooses. -/
inductive Program (K V Q N Result : Type)
  | done (result : Result)
  | get (key : K) (next : Option (V × ETag) → Program K V Q N Result)
  | put (key : K) (value : V) (condition : Condition)
      (next : Bool → Program K V Q N Result)
  | delete (key : K) (next : Program K V Q N Result)
  | ask (query : Q) (next : Bool → Program K V Q N Result)
  | note (message : N) (next : Program K V Q N Result)

namespace Program

def bind : Program K V Q N α → (α → Program K V Q N β) → Program K V Q N β
  | .done result, rest => rest result
  | .get key next, rest => .get key fun reply => (next reply).bind rest
  | .put key value condition next, rest =>
      .put key value condition fun reply => (next reply).bind rest
  | .delete key next, rest => .delete key (next.bind rest)
  | .ask query next, rest => .ask query fun reply => (next reply).bind rest
  | .note message next, rest => .note message (next.bind rest)

instance : Monad (Program K V Q N) where
  pure := .done
  bind := bind

/-! The single operations, as statements of a `do` block. -/

def getBytes (key : K) : Program K V Q N (Option (V × ETag)) := .get key .done

def putCas (key : K) (value : V) (condition : Condition) : Program K V Q N Bool :=
  .put key value condition .done

def putFile (key : K) (value : V) : Program K V Q N Unit :=
  .put key value .always fun _ => .done ()

def deleteKey (key : K) : Program K V Q N Unit := .delete key (.done ())

def askFor (query : Q) : Program K V Q N Bool := .ask query .done

def report (message : N) : Program K V Q N Unit := .note message (.done ())

section

variable (rest : α → Program K V Q N β)

@[simp] theorem pure_eq_done (result : α) : (pure result : Program K V Q N α) = .done result := rfl

@[simp] theorem bind_eq_bind (program : Program K V Q N α) : program >>= rest = program.bind rest := rfl

@[simp] theorem bind_done (result : α) : (Program.done result).bind rest = rest result := rfl

@[simp] theorem bind_get (key : K) (next : Option (V × ETag) → Program K V Q N α) :
    (Program.get key next).bind rest = .get key fun reply => (next reply).bind rest := rfl

@[simp] theorem bind_put (key : K) (value : V) (condition : Condition)
    (next : Bool → Program K V Q N α) :
    (Program.put key value condition next).bind rest =
      .put key value condition fun reply => (next reply).bind rest := rfl

@[simp] theorem bind_delete (key : K) (next : Program K V Q N α) :
    (Program.delete key next).bind rest = .delete key (next.bind rest) := rfl

@[simp] theorem bind_ask (query : Q) (next : Bool → Program K V Q N α) :
    (Program.ask query next).bind rest = .ask query fun reply => (next reply).bind rest := rfl

@[simp] theorem bind_note (message : N) (next : Program K V Q N α) :
    (Program.note message next).bind rest = .note message (next.bind rest) := rfl

@[simp] theorem getBytes_bind (key : K) (rest : Option (V × ETag) → Program K V Q N β) :
    (getBytes key).bind rest = .get key rest := rfl

@[simp] theorem putCas_bind (key : K) (value : V) (condition : Condition)
    (rest : Bool → Program K V Q N β) :
    (putCas key value condition).bind rest = .put key value condition rest := rfl

@[simp] theorem putFile_bind (key : K) (value : V) (rest : Unit → Program K V Q N β) :
    (putFile key value).bind rest = .put key value .always fun _ => rest () := rfl

@[simp] theorem deleteKey_bind (key : K) (rest : Unit → Program K V Q N β) :
    (deleteKey key).bind rest = .delete key (rest ()) := rfl

@[simp] theorem askFor_bind (query : Q) (rest : Bool → Program K V Q N β) :
    (askFor query).bind rest = .ask query rest := rfl

@[simp] theorem report_bind (message : N) (rest : Unit → Program K V Q N β) :
    (report message).bind rest = .note message (rest ()) := rfl

end

theorem bind_assoc (program : Program K V Q N α) (first : α → Program K V Q N β) (second : β → Program K V Q N γ) :
    (program.bind first).bind second = program.bind fun value => (first value).bind second := by
  induction program with
  | done result => rfl
  | get key next induction => simp [induction]
  | put key value condition next induction => simp [induction]
  | delete key next induction => simp [induction]
  | ask query next induction => simp [induction]
  | note message next induction => simp [induction]

def isDone : Program K V Q N α → Bool
  | .done _ => true
  | _ => false

end Program

end CityPods.Foundation
