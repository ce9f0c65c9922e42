import Mathlib.Data.Rat.Defs
import CityPods.Foundation.Dict

/-! # Dynamic values

The values that records are made of: what the JSON reader of the modelled
language yields, and tuples, which its writer turns into arrays. Integers and
floating-point numbers are rationals; object keys are strings.
-/

namespace CityPods.Foundation

inductive PyVal
  | none
  | bool (value : Bool)
  | num (value : ℚ)
  | str (value : String)
  | list (elements : List PyVal)
  | tuple (elements : List PyVal)
  | dict (entries : List (String × PyVal))

namespace PyVal

instance : Inhabited PyVal := ⟨.none⟩

mutual

def same : PyVal → PyVal → Bool
  | .none, .none => true
  | .bool first, .bool second => first == second
  | .num first, .num second => first == second
  | .str first, .str second => first == second
  | .list first, .list second => sameAll first second
  | .tuple first, .tuple second => sameAll first second
  | .dict first, .dict second => sameEntries first second
  | _, _ => false

def sameAll : List PyVal → List PyVal → Bool
  | [], [] => true
  | first :: firsts, second :: seconds => first.same second && sameAll firsts seconds
  | _, _ => false

def sameEntries : List (String × PyVal) → List (String × PyVal) → Bool
  | [], [] => true
  | (key, first) :: firsts, (other, second) :: seconds =>
      key == other && first.same second && sameEntries firsts seconds
  | _, _ => false

end

mutual

theorem same_iff : ∀ first second : PyVal, first.same second = true ↔ first = second
  | .none, second => by cases second <;> simp [same]
  | .bool value, second => by cases second <;> simp [same]
  | .num value, second => by cases second <;> simp [same]
  | .str value, second => by cases second <;> simp [same]
  | .list elements, second => by
      cases second with
      | list others => simp [same, sameAll_iff elements others]
      | _ => simp [same]
  | .tuple elements, second => by
      cases second with
      | tuple others => simp [same, sameAll_iff elements others]
      | _ => simp [same]
  | .dict entries, second => by
      cases second with
      | dict others => simp [same, sameEntries_iff entries others]
      | _ => simp [same]

theorem sameAll_iff : ∀ firsts seconds : List PyVal, sameAll firsts seconds = true ↔ firsts = seconds
  | [], seconds => by cases seconds <;> simp [sameAll]
  | first :: firsts, seconds => by
      cases seconds with
      | nil => simp [sameAll]
      | cons second seconds =>
          simp [sameAll, same_iff first second, sameAll_iff firsts seconds]

theorem sameEntries_iff :
    ∀ firsts seconds : List (String × PyVal), sameEntries firsts seconds = true ↔ firsts = seconds
  | [], seconds => by cases seconds <;> simp [sameEntries]
  | (key, first) :: firsts, seconds => by
      cases seconds with
      | nil => simp [sameEntries]
      | cons entry seconds =>
          obtain ⟨other, second⟩ := entry
          simp [sameEntries, same_iff first second, sameEntries_iff firsts seconds]

end

instance : DecidableEq PyVal := fun first second =>
  decidable_of_iff (first.same second = true) (same_iff first second)

mutual

/-- `first == second`, which counts a Boolean as a number and does not look at
the order of the keys. -/
def equals : PyVal → PyVal → Bool
  | .none, .none => true
  | .bool first, .bool second => first == second
  | .bool first, .num second => (if first then 1 else 0) == second
  | .num first, .bool second => first == (if second then 1 else 0)
  | .num first, .num second => first == second
  | .str first, .str second => first == second
  | .list first, .list second => equalsAll first second
  | .tuple first, .tuple second => equalsAll first second
  | .dict first, .dict second => first.length == second.length && foundIn first second
  | _, _ => false

def equalsAll : List PyVal → List PyVal → Bool
  | [], [] => true
  | first :: firsts, second :: seconds => first.equals second && equalsAll firsts seconds
  | _, _ => false

def foundIn : List (String × PyVal) → Dict String PyVal → Bool
  | [], _ => true
  | (key, value) :: rest, entries =>
      (match entries.get? key with
        | .none => false
        | .some found => value.equals found) && foundIn rest entries

end

theorem get?_of_foundIn {first : List (String × PyVal)} {second : Dict String PyVal}
    (found : foundIn first second = true) {key : String} {value : PyVal}
    (held : Dict.get? first key = some value) :
    ∃ other, second.get? key = some other ∧ value.equals other = true := by
  induction first with
  | nil => cases held
  | cons entry rest induction =>
      obtain ⟨head, other⟩ := entry
      unfold foundIn at found
      rw [Bool.and_eq_true] at found
      rw [Dict.get?_cons] at held
      split at held
      · next same =>
        cases held
        subst same
        cases present : second.get? head with
        | none =>
            rw [present] at found
            cases found.1
        | some there =>
            rw [present] at found
            exact ⟨there, rfl, found.1⟩
      · exact induction found.2 held

theorem str_equals_iff {text : String} {value : PyVal} :
    (PyVal.str text).equals value = true ↔ value = .str text := by
  cases value with
  | str other => simpa [equals] using eq_comm
  | _ => simp [equals]

def truthy : PyVal → Bool
  | .none => false
  | .bool value => value
  | .num value => value ≠ 0
  | .str value => value ≠ ""
  | .list elements => !elements.isEmpty
  | .tuple elements => !elements.isEmpty
  | .dict entries => !entries.isEmpty

def asDict? : PyVal → Option (Dict String PyVal)
  | .dict entries => some entries
  | _ => Option.none

def asList? : PyVal → Option (List PyVal)
  | .list elements => some elements
  | _ => Option.none

def asStr? : PyVal → Option String
  | .str value => some value
  | _ => Option.none

/-- `value or fallback` -/
def orElse (value fallback : PyVal) : PyVal := if value.truthy then value else fallback

mutual

/-- What `json.loads(json.dumps(value))` yields. -/
def jsonRoundTrip : PyVal → PyVal
  | .none => .none
  | .bool value => .bool value
  | .num value => .num value
  | .str value => .str value
  | .list elements => .list (jsonRoundTripAll elements)
  | .tuple elements => .list (jsonRoundTripAll elements)
  | .dict entries => .dict (jsonRoundTripEntries entries)

def jsonRoundTripAll : List PyVal → List PyVal
  | [] => []
  | element :: rest => element.jsonRoundTrip :: jsonRoundTripAll rest

def jsonRoundTripEntries : List (String × PyVal) → List (String × PyVal)
  | [] => []
  | (key, value) :: rest => (key, value.jsonRoundTrip) :: jsonRoundTripEntries rest

end

end PyVal

end CityPods.Foundation
