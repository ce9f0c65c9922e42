import Mathlib.Data.String.Basic

/-! # Texts in the order of their bytes

The order in which a binary collation puts texts: byte by byte in UTF-8, and a
text before those it starts. It is the order of the code points.
-/

namespace CityPods.Foundation.ByteOrder

/-- The UTF-8 bytes of a text. -/
def encode (chars : List Char) : List Nat := (chars.flatMap String.utf8EncodeChar).map UInt8.toNat

/-- Negative where the left bytes come first, positive where the right ones do. -/
def compareBytes : List Nat → List Nat → Int
  | byte :: left, other :: right => if byte = other then compareBytes left right else byte - other
  | left, right => left.length - right.length

@[simp] theorem encode_nil : encode [] = [] := rfl

theorem encode_cons (char : Char) (chars : List Char) :
    encode (char :: chars) = (String.utf8EncodeChar char).map UInt8.toNat ++ encode chars := by
  simp [encode]

theorem compareBytes_append (shared left right : List Nat) :
    compareBytes (shared ++ left) (shared ++ right) = compareBytes left right := by
  induction shared with
  | nil => rfl
  | cons byte rest induction => simpa [compareBytes] using induction

theorem compareBytes_swap (left right : List Nat) :
    compareBytes right left = - compareBytes left right := by
  induction left generalizing right with
  | nil => cases right <;> simp [compareBytes]
  | cons byte left induction =>
      cases right with
      | nil => simp [compareBytes]
      | cons other right =>
          unfold compareBytes
          by_cases same : byte = other
          · rw [if_pos same, if_pos same.symm, induction]
          · rw [if_neg same, if_neg fun equal => same equal.symm]
            omega

theorem compareBytes_nil (right : List Nat) : compareBytes [] right = - right.length := by
  cases right <;> simp [compareBytes]

theorem compareBytes_self (bytes : List Nat) : compareBytes bytes bytes = 0 := by
  have swapped := compareBytes_swap bytes bytes
  omega

def pointBytes (point : Nat) : List Nat :=
  if point ≤ 0x7f then [point]
  else if point ≤ 0x7ff then [point / 64 + 0xc0, point % 0x40 + 0x80]
  else if point ≤ 0xffff then
    [point / 4096 + 0xe0, point / 64 % 0x40 + 0x80, point % 0x40 + 0x80]
  else
    [point / 262144 + 0xf0, point / 4096 % 0x40 + 0x80, point / 64 % 0x40 + 0x80,
      point % 0x40 + 0x80]

theorem point_lt (char : Char) : char.val.toNat < 0x110000 := by
  have valid := char.valid
  unfold UInt32.isValidChar Nat.isValidChar at valid
  omega

theorem encode_char (char : Char) :
    (String.utf8EncodeChar char).map UInt8.toNat = pointBytes char.val.toNat := by
  have bound := point_lt char
  unfold String.utf8EncodeChar pointBytes
  dsimp only
  split
  · simp only [List.map_cons, List.map_nil, UInt8.toNat_ofNat', List.cons.injEq, and_true]
    omega
  split
  · simp only [List.map_cons, List.map_nil, UInt8.toNat_ofNat', List.cons.injEq, and_true]
    omega
  split
  · simp only [List.map_cons, List.map_nil, UInt8.toNat_ofNat', List.cons.injEq, and_true]
    omega
  · simp only [List.map_cons, List.map_nil, UInt8.toNat_ofNat', List.cons.injEq, and_true]
    omega

theorem compareBytes_cons {byte other : Nat} {left right : List Nat} :
    compareBytes (byte :: left) (other :: right) < 0 ↔
      byte < other ∨ (byte = other ∧ compareBytes left right < 0) := by
  show (if byte = other then compareBytes left right else (byte : Int) - other) < 0 ↔ _
  split <;> omega

/-- A lesser code point decides the comparison, whatever follows. -/
theorem compareBytes_point {low high : Nat} (before : low < high) (bound : high < 0x110000)
    (rest others : List Nat) :
    compareBytes (pointBytes low ++ rest) (pointBytes high ++ others) < 0 := by
  unfold pointBytes
  split
  · split
    · simp only [List.cons_append, compareBytes_cons]
      omega
    · split
      · simp only [List.cons_append, compareBytes_cons]
        omega
      · split <;> simp only [List.cons_append, compareBytes_cons] <;> omega
  split
  · rw [if_neg (by omega)]
    split
    · simp only [List.cons_append, compareBytes_cons]
      omega
    · split <;> simp only [List.cons_append, compareBytes_cons] <;> omega
  split
  · rw [if_neg (by omega), if_neg (by omega)]
    split <;> simp only [List.cons_append, compareBytes_cons] <;> omega
  · rw [if_neg (by omega), if_neg (by omega), if_neg (by omega)]
    simp only [List.cons_append, compareBytes_cons]
    omega

theorem compareBytes_of_lt {left right : List Char} (before : left < right) :
    compareBytes (encode left) (encode right) < 0 := by
  induction before with
  | @nil char rest =>
      have some : 0 < (pointBytes char.val.toNat).length := by
        unfold pointBytes
        split <;> [skip; split <;> [skip; split]] <;> simp
      rw [encode_nil, compareBytes_nil, encode_cons, encode_char, List.length_append]
      omega
  | rel less =>
      rw [encode_cons, encode_cons, encode_char, encode_char]
      exact compareBytes_point less (point_lt _) _ _
  | cons _ induction =>
      rw [encode_cons, encode_cons, compareBytes_append]
      exact induction

/-- Byte order is the order of the texts. -/
theorem compareBytes_nonpos_iff {left right : String} :
    compareBytes (encode left.toList) (encode right.toList) ≤ 0 ↔ left ≤ right := by
  rcases lt_trichotomy left right with before | rfl | after
  · have negative := compareBytes_of_lt (String.lt_iff_toList_lt.mp before)
    exact iff_of_true negative.le before.le
  · exact iff_of_true (compareBytes_self _).le (le_refl left)
  · have negative := compareBytes_of_lt (String.lt_iff_toList_lt.mp after)
    have swapped := compareBytes_swap (encode right.toList) (encode left.toList)
    exact iff_of_false (by omega) (not_le.mpr after)

end CityPods.Foundation.ByteOrder
