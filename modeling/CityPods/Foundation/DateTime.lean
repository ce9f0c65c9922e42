import Mathlib

/-! # Dates and times

The moments of the modelled language's standard library, in UTC, compared field
by field, and their `YYYY-MM-DD` form.
-/

namespace CityPods.Foundation

/-- The number of days of a month, by the Gregorian rule. -/
def daysInMonth (year month : Nat) : Nat :=
  if month = 2 then
    if year % 4 = 0 ∧ (year % 100 ≠ 0 ∨ year % 400 = 0) then 29 else 28
  else if month = 4 ∨ month = 6 ∨ month = 9 ∨ month = 11 then 30
  else 31

theorem daysInMonth_pos (year month : Nat) : 1 ≤ daysInMonth year month := by
  unfold daysInMonth
  split
  · split <;> omega
  · split <;> omega

theorem daysInMonth_le (year month : Nat) : daysInMonth year month ≤ 31 := by
  unfold daysInMonth
  split
  · split <;> omega
  · split <;> omega

structure DateTime where
  year : Nat
  month : Nat
  day : Nat
  /-- Microseconds since midnight. -/
  microsecond : Nat
  month_valid : 1 ≤ month ∧ month ≤ 12 := by decide
  day_valid : 1 ≤ day ∧ day ≤ daysInMonth year month := by decide

namespace DateTime

def fields (time : DateTime) : Nat ×ₗ Nat ×ₗ Nat ×ₗ Nat :=
  toLex (time.year, toLex (time.month, toLex (time.day, time.microsecond)))

theorem fields_injective : Function.Injective fields := by
  rintro ⟨year, month, day, microsecond, _, _⟩ ⟨year', month', day', microsecond', _, _⟩ same
  simp only [fields, toLex_inj, Prod.mk.injEq] at same
  obtain ⟨rfl, rfl, rfl, rfl⟩ := same
  rfl

instance : LinearOrder DateTime := LinearOrder.lift' fields fields_injective

def date (year month day : Nat) (month_valid : 1 ≤ month ∧ month ≤ 12)
    (day_valid : 1 ≤ day ∧ day ≤ daysInMonth year month) : DateTime :=
  { year := year, month := month, day := day, microsecond := 0, month_valid := month_valid,
    day_valid := day_valid }

def twoDigits (n : Nat) : String := if n < 10 then "0" ++ toString n else toString n

def formatMonth (time : DateTime) : String := s!"{time.year}-{twoDigits time.month}"

def formatDate (time : DateTime) : String :=
  s!"{time.year}-{twoDigits time.month}-{twoDigits time.day}"

theorem twoDigits_length : ∀ n < 32, (twoDigits n).toList.length = 2 := by decide

theorem twoDigits_injective : ∀ m < 32, ∀ n < 32, twoDigits m = twoDigits n → m = n := by
  decide

theorem month_lt (time : DateTime) : time.month < 32 := by
  have valid := time.month_valid
  omega

theorem day_lt (time : DateTime) : time.day < 32 := by
  have valid := time.day_valid
  have bounded := daysInMonth_le time.year time.month
  omega

theorem formatDate_toList (time : DateTime) :
    time.formatDate.toList = (toString time.year).toList ++
      ('-' :: ((twoDigits time.month).toList ++ ('-' :: (twoDigits time.day).toList))) := by
  simp [formatDate, toString]

/-- The fixed width of months and days makes the form of a date unique. -/
theorem formatDate_injective {first second : DateTime}
    (same : first.formatDate = second.formatDate) :
    first.year = second.year ∧ first.month = second.month ∧ first.day = second.day := by
  have lists := congrArg String.toList same
  rw [formatDate_toList, formatDate_toList] at lists
  have firstMonth := twoDigits_length _ first.month_lt
  have secondMonth := twoDigits_length _ second.month_lt
  have firstDay := twoDigits_length _ first.day_lt
  have secondDay := twoDigits_length _ second.day_lt
  obtain ⟨years, rest⟩ := List.append_inj' lists (by simp; omega)
  obtain ⟨months, rest⟩ := List.append_inj (List.cons.inj rest).2 (by omega)
  have days := (List.cons.inj rest).2
  refine ⟨Nat.repr_injective (String.toList_inj.mp years), ?_, ?_⟩
  · exact twoDigits_injective _ first.month_lt _ second.month_lt (String.toList_inj.mp months)
  · exact twoDigits_injective _ first.day_lt _ second.day_lt (String.toList_inj.mp days)

end DateTime

end CityPods.Foundation
