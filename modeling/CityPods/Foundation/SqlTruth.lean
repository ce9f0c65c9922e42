import Mathlib.Data.Option.Basic

/-! # Truth in SQL

Comparisons over nullable values, with SQL's third truth value, and when a row
meets a `WHERE` clause.
-/

namespace CityPods.Foundation.Sql

variable {α : Type}

/-- True, false, or `NULL`. -/
abbrev Truth := Option Bool

/-- A comparison with `NULL` is `NULL`. -/
def eq [DecidableEq α] (left right : Option α) : Truth :=
  left.bind fun value => right.map fun other => decide (value = other)

def isNull (value : Option α) : Truth := some value.isNone

def not (truth : Truth) : Truth := truth.map Bool.not

def and : Truth → Truth → Truth
  | some false, _ => some false
  | some true, right => right
  | none, some false => some false
  | none, _ => none

def or : Truth → Truth → Truth
  | some true, _ => some true
  | some false, right => right
  | none, some true => some true
  | none, _ => none

/-- `value LIKE 'start%'`, where `start` holds no wildcard: ASCII letters are
compared without their case. -/
def likeStart (start : String) (value : Option String) : Truth :=
  value.map fun text => (start.toList.map Char.toLower).isPrefixOf (text.toList.map Char.toLower)

/-- A `WHERE` clause keeps the rows for which it is true. -/
def Holds (truth : Truth) : Prop := truth = some true

instance (truth : Truth) : Decidable (Holds truth) := inferInstanceAs (Decidable (truth = some true))

@[simp] theorem holds_and (left right : Truth) :
    Holds (and left right) ↔ Holds left ∧ Holds right := by
  rcases left with _ | _ | _ <;> rcases right with _ | _ | _ <;> simp [and, Holds]

@[simp] theorem holds_or (left right : Truth) :
    Holds (or left right) ↔ Holds left ∨ Holds right := by
  rcases left with _ | _ | _ <;> rcases right with _ | _ | _ <;> simp [or, Holds]

@[simp] theorem holds_not_likeStart (start text : String) :
    Holds (not (likeStart start (some text))) ↔ ¬ Holds (likeStart start (some text)) := by
  rw [likeStart, Option.map_some]
  cases (start.toList.map Char.toLower).isPrefixOf (text.toList.map Char.toLower) <;> simp [not, Holds]

@[simp] theorem holds_isNull (value : Option α) : Holds (isNull value) ↔ value = none := by
  simp [isNull, Holds]

@[simp] theorem holds_eq [DecidableEq α] (left right : Option α) :
    Holds (eq left right) ↔ ∃ value, left = some value ∧ right = some value := by
  cases left <;> cases right <;> simp [eq, Holds, eq_comm]

@[simp] theorem holds_not_eq_none [DecidableEq α] (right : Option α) : ¬ Holds (not (eq none right)) := by
  simp [eq, not, Holds]

@[simp] theorem holds_not_eq_some [DecidableEq α] (value other : α) :
    Holds (not (eq (some value) (some other))) ↔ value ≠ other := by
  simp [eq, not, Holds]

end CityPods.Foundation.Sql
