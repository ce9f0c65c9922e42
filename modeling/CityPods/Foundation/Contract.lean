import CityPods.Foundation.Program

/-! # Contracts of storage programs

A contract says what every successful write of a program may do to the object
it replaces. A conditional write replaces the very value its ETag was read
with, so a contract can be checked on the program alone, whatever other
programs do to the store between its read and its write.
-/

namespace CityPods.Foundation

/-- The stored values a program has been told about, with their ETags. -/
abbrev Knowledge (K V : Type) := K → V → ETag → Prop

namespace Knowledge

def none : Knowledge K V := fun _ _ _ => False

def learn (known : Knowledge K V) (key : K) (value : V) (etag : ETag) : Knowledge K V :=
  fun otherKey otherValue otherETag =>
    known otherKey otherValue otherETag ∨
      (otherKey = key ∧ otherValue = value ∧ otherETag = etag)

/-- `known` contains no fact that `more` lacks. -/
def Le (known more : Knowledge K V) : Prop :=
  ∀ key value etag, known key value etag → more key value etag

theorem Le.refl (known : Knowledge K V) : known.Le known := fun _ _ _ fact => fact

theorem none_le (known : Knowledge K V) : Knowledge.none.Le known := fun _ _ _ fact => fact.elim

variable {known more : Knowledge K V}

theorem Le.learn (le : known.Le more) (key : K) (value : V) (etag : ETag) :
    (known.learn key value etag).Le (more.learn key value etag) := by
  rintro otherKey otherValue otherETag (fact | same)
  · exact .inl (le _ _ _ fact)
  · exact .inr same

variable {key : K} {value : V} {etag : ETag}

theorem learn_le (le : known.Le more) (fact : more key value etag) :
    (known.learn key value etag).Le more := by
  rintro otherKey otherValue otherETag (old | ⟨rfl, rfl, rfl⟩)
  · exact le _ _ _ old
  · exact fact

/-- The values a write under this condition can replace, as far as the
program can tell. -/
def Allows (known : Knowledge K V) (key : K) : Condition → Option V → Prop
  | .always, _ => True
  | .ifNoneMatch, before => before = Option.none
  | .ifMatch etag, before =>
      ∃ value, before = some value ∧ ∀ other, known key other etag → other = value

variable {before : Option V}

theorem Allows.anti (le : known.Le more) {condition : Condition}
    (allows : more.Allows key condition before) : known.Allows key condition before := by
  cases condition with
  | always => trivial
  | ifNoneMatch => exact allows
  | ifMatch etag =>
      obtain ⟨value, equal, unique⟩ := allows
      exact ⟨value, equal, fun other fact => unique other (le _ _ _ fact)⟩

/-- A write conditioned on an ETag that was just read replaces what was read. -/
theorem Allows.eq_of_learn
    (allows : (known.learn key value etag).Allows key (.ifMatch etag) before) :
    before = some value := by
  obtain ⟨stored, equal, unique⟩ := allows
  rw [equal, ← unique value (.inr ⟨rfl, rfl, rfl⟩)]

theorem Allows.eq_read {stored : Option (V × ETag)}
    (allows : known.Allows key (writeCondition (stored.map Prod.snd)) before)
    (informed : ∀ value etag, stored = some (value, etag) → known key value etag) :
    before = stored.map Prod.fst := by
  cases stored with
  | none => exact allows
  | some object =>
      obtain ⟨value, equal, unique⟩ := allows
      rw [equal, ← unique object.1 (informed object.1 object.2 rfl)]
      rfl

end Knowledge

/-- The successful writes of one program, newest first. -/
abbrev Writes (K V : Type) := List (K × Option V)

/-- `writes own key before after remaining` permits a write that replaces
`before` by `after` under `key`, by a program that has made the writes `own`
and goes on as `remaining`. `returns` restricts the final result. -/
structure Contract (K V Q N Result : Type) where
  writes : Writes K V → K → Option V → Option V → Program K V Q N Result → Prop
  returns : Writes K V → Result → Prop := fun _ _ => True

namespace Program

def Meets (contract : Contract K V Q N Result) :
    Knowledge K V → Writes K V → Program K V Q N Result → Prop
  | _, own, .done result => contract.returns own result
  | known, own, .get key next =>
      (next none).Meets contract known own ∧
        ∀ value etag, (next (some (value, etag))).Meets contract
          (known.learn key value etag) own
  | known, own, .put key value condition next =>
      (∀ before, known.Allows key condition before →
          contract.writes own key before (some value) (next true)) ∧
        (next true).Meets contract known ((key, some value) :: own) ∧
        (condition ≠ .always → (next false).Meets contract known own)
  | known, own, .delete key next =>
      (∀ before, contract.writes own key before none next) ∧
        next.Meets contract known ((key, none) :: own)
  | known, own, .ask _ next => ∀ reply, (next reply).Meets contract known own
  | known, own, .note _ next => next.Meets contract known own

variable {contract : Contract K V Q N Result} {known more : Knowledge K V} {own : Writes K V}

@[simp] theorem meets_done {result : Result} :
    (Program.done result : Program K V Q N Result).Meets contract known own ↔
      contract.returns own result := Iff.rfl

variable {key : K}

@[simp] theorem meets_get {next : Option (V × ETag) → Program K V Q N Result} :
    (Program.get key next).Meets contract known own ↔
      (next none).Meets contract known own ∧
        ∀ value etag, (next (some (value, etag))).Meets contract
          (known.learn key value etag) own := Iff.rfl

variable {next : Bool → Program K V Q N Result}

@[simp] theorem meets_put {value : V} {condition : Condition} :
    (Program.put key value condition next).Meets contract known own ↔
      (∀ before, known.Allows key condition before →
          contract.writes own key before (some value) (next true)) ∧
        (next true).Meets contract known ((key, some value) :: own) ∧
        (condition ≠ .always → (next false).Meets contract known own) := Iff.rfl

@[simp] theorem meets_delete {next : Program K V Q N Result} :
    (Program.delete key next).Meets contract known own ↔
      (∀ before, contract.writes own key before none next) ∧
        next.Meets contract known ((key, none) :: own) := Iff.rfl

@[simp] theorem meets_ask {query : Q} :
    (Program.ask query next).Meets contract known own ↔
      ∀ reply, (next reply).Meets contract known own := Iff.rfl

theorem Meets.mono {program : Program K V Q N Result} (meets : program.Meets contract known own)
    (le : known.Le more) : program.Meets contract more own := by
  induction program generalizing known more own with
  | done result => exact meets
  | get key next induction =>
      exact ⟨induction none meets.1 le, fun value etag =>
        induction (some (value, etag)) (meets.2 value etag) (le.learn key value etag)⟩
  | put key value condition next induction =>
      obtain ⟨permitted, succeeded, failed⟩ := meets
      exact ⟨fun before allows => permitted before (allows.anti le),
        induction true succeeded le,
        fun conditional => induction false (failed conditional) le⟩
  | delete key next induction => exact ⟨meets.1, induction meets.2 le⟩
  | ask query next induction => exact fun reply => induction reply (meets reply) le
  | note message next induction => exact induction meets le

/-- Sequential composition: the first part keeps what it writes within the
contract of the whole, and the rest is fine after whatever the first returns. -/
theorem Meets.bind {first : Contract K V Q N α} {program : Program K V Q N α} {rest : α → Program K V Q N Result}
    (meets : program.Meets first known own) (writes : ∀ own key before after remaining,
      first.writes own key before after remaining →
        contract.writes own key before after (remaining.bind rest))
    (continues : ∀ more own result, known.Le more → first.returns own result →
      (rest result).Meets contract more own) :
    (program.bind rest).Meets contract known own := by
  induction program generalizing known own with
  | done result => exact continues known own result (Knowledge.Le.refl known) meets
  | get key next induction =>
      refine ⟨induction none meets.1 continues, fun value etag => ?_⟩
      apply induction (some (value, etag)) (meets.2 value etag)
      intro more own result le returned
      exact continues more own result
        (fun key value etag fact => le _ _ _ (.inl fact)) returned
  | put key value condition next induction =>
      obtain ⟨permitted, succeeded, failed⟩ := meets
      exact ⟨fun before allows => writes _ _ _ _ _ (permitted before allows),
        induction true succeeded continues,
        fun conditional => induction false (failed conditional) continues⟩
  | delete key next induction =>
      exact ⟨fun before => writes _ _ _ _ _ (meets.1 before), induction meets.2 continues⟩
  | ask query next induction => exact fun reply => induction reply (meets reply) continues
  | note message next induction => exact induction meets continues

end Program

end CityPods.Foundation
