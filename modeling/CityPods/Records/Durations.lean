import Mathlib.Algebra.Order.Round
import Mathlib.Data.Rat.Floor
import CityPods.Foundation.PyVal

/-! # Record durations

The durations of a record as the numbers they are written with.
-/

namespace CityPods.Records

open Foundation

abbrev Record := Dict String PyVal

def digitValue (char : Char) : Option Nat :=
  if '0' ≤ char ∧ char ≤ '9' then some (char.toNat - '0'.toNat) else none

def powerOfTen : Nat → Nat
  | 0 => 1
  | n + 1 => 10 * powerOfTen n

/-- The digits at the start of a text: how many, and their value. -/
def leadingDigits : List Char → Nat × Nat × List Char
  | [] => (0, 0, [])
  | char :: rest =>
      match digitValue char with
      | none => (0, 0, char :: rest)
      | some digit =>
          let (count, value, remaining) := leadingDigits rest
          (count + 1, digit * powerOfTen count + value, remaining)

def leadingSign : List Char → ℚ × List Char
  | '-' :: rest => (-1, rest)
  | '+' :: rest => (1, rest)
  | text => (1, text)

def parseExponent (mantissa : ℚ) : List Char → Option ℚ
  | [] => some mantissa
  | char :: rest =>
      if char = 'e' ∨ char = 'E' then
        let (sign, text) := leadingSign rest
        match leadingDigits text with
        | (0, _, _) => none
        | (_, exponent, []) =>
            some (if sign < 0 then mantissa / powerOfTen exponent else mantissa * powerOfTen exponent)
        | _ => none
      else none

/-- `float(text)` for decimal numerals. -/
def parseFloat (text : String) : Option ℚ :=
  let (sign, unsigned) := leadingSign text.trimAscii.toString.toList
  let (count, whole, rest) := leadingDigits unsigned
  match rest with
  | '.' :: fraction =>
      let (places, part, remaining) := leadingDigits fraction
      if count + places = 0 then none
      else parseExponent (sign * (whole + part / powerOfTen places)) remaining
  | _ => if count = 0 then none else parseExponent (sign * whole) rest

/-- `float(value)`, where that is defined. -/
def toFloat : PyVal → Option ℚ
  | .num value => some value
  | .bool value => some (if value then 1 else 0)
  | .str text => parseFloat text
  | _ => none

def positiveSeconds (value : PyVal) : Option ℚ :=
  (toFloat value).filter fun seconds => 0 < seconds

/-- `record.get(key)` -/
def field (record : Record) (key : String) : PyVal := (record.get? key).getD .none

end CityPods.Records
