import Mathlib.Data.List.Basic

/-! # White space and parts of a text

The characters that the modelled language strips from a text, and where one text occurs in
another.
-/

namespace CityPods.Foundation

namespace Whitespace

/-- The characters that `str.strip` removes. -/
def isSpace (char : Char) : Bool :=
  ('\t' ≤ char && char ≤ '\r') || ('\x1c' ≤ char && char ≤ ' ') ||
    char ∈ ['\x85', '\xa0', '\u1680', '\u2028', '\u2029', '\u202f', '\u205f', '\u3000'] ||
    ('\u2000' ≤ char && char ≤ '\u200a')

def isBlank (text : String) : Bool := text.toList.all isSpace

def strip (text : String) : String :=
  String.ofList (((text.toList.dropWhile isSpace).reverse.dropWhile isSpace).reverse)

/-! ## The ends of a stripped text -/

theorem isSpace_of_head?_dropWhile {chars : List Char} {char : Char}
    (first : (chars.dropWhile isSpace).head? = some char) : isSpace char = false := by
  have stops := List.head?_dropWhile_not isSpace chars
  rw [first] at stops
  exact stops

variable {text : String} {char : Char}

theorem isSpace_of_getLast?_strip
    (last : (strip text).toList.getLast? = some char) : isSpace char = false := by
  rw [strip, String.toList_ofList, List.getLast?_reverse] at last
  exact isSpace_of_head?_dropWhile last

theorem isSpace_of_head?_strip
    (first : (strip text).toList.head? = some char) : isSpace char = false := by
  rw [strip, String.toList_ofList] at first
  apply @isSpace_of_head?_dropWhile text.toList
  have split := congrArg List.reverse
    (List.takeWhile_append_dropWhile (p := isSpace) (l := (text.toList.dropWhile isSpace).reverse))
  rw [List.reverse_append, List.reverse_reverse] at split
  rw [← split, List.head?_append, first]
  rfl

end Whitespace

end CityPods.Foundation

/-! ## Parts of a text

Where a text occurs in another, searched from the left.
-/

namespace CityPods.Foundation.Substrings

variable {α : Type*}

/-- The target begins at the place, and at none before it. -/
def OccursFirst (target text : List α) (place : Nat) : Prop :=
  target <+: text.drop place ∧ ∀ earlier < place, ¬ target <+: text.drop earlier

def find [DecidableEq α] (target text : List α) : Option Nat :=
  (List.range (text.length + 1)).find? fun place => target.isPrefixOf (text.drop place)

variable {target text : List α} {place : Nat}

theorem find_eq_some_iff [DecidableEq α] :
    find target text = some place ↔ OccursFirst target text place ∧ place ≤ text.length := by
  unfold find OccursFirst
  rw [List.find?_range_eq_some]
  simp only [List.isPrefixOf_iff_prefix, List.mem_range, Bool.not_eq_true', Bool.eq_false_iff, ne_eq]
  constructor
  · intro ⟨occurs, within, first⟩
    exact ⟨⟨occurs, first⟩, by omega⟩
  · intro ⟨⟨occurs, first⟩, within⟩
    exact ⟨occurs, by omega, first⟩

theorem getElem?_of_prefix {index : Nat}
    (occurs : target <+: text.drop place) (inside : index < target.length) :
    text[place + index]? = target[index]? := by
  obtain ⟨rest, rest_eq⟩ := occurs
  rw [← List.getElem?_drop, ← rest_eq, List.getElem?_append_left inside]

theorem add_length_le (occurs : target <+: text.drop place)
    (nonempty : target ≠ []) : place + target.length ≤ text.length := by
  have short := occurs.length_le
  have some_ := List.length_pos_of_ne_nil nonempty
  rw [List.length_drop] at short
  omega

end CityPods.Foundation.Substrings
