import Mathlib.Algebra.Order.Floor.Ring
import Mathlib.Algebra.Order.Ring.Rat
import Mathlib.Data.Int.Log
import Mathlib.Data.Rat.Floor
import Mathlib.Tactic.Linarith
import Mathlib.Tactic.NormNum

/-! # Doubles nearest to positive rationals

A double has 53 significant bits. A positive rational is rounded to the nearest
one, and a tie to the one whose last bit is even. The exponent is not bounded.
-/

namespace CityPods.Foundation.Doubles

def roundHalfEven (x : ℚ) : ℤ :=
  if x - ⌊x⌋ < 1 / 2 then ⌊x⌋
  else if 1 / 2 < x - ⌊x⌋ then ⌊x⌋ + 1
  else ⌊x⌋ + ⌊x⌋ % 2

/-- The distance between the doubles around a positive rational. -/
def spacing (x : ℚ) : ℚ := 2 ^ (Int.log 2 x - 52)

def nearest (x : ℚ) : ℚ := roundHalfEven (x / spacing x) * spacing x

variable {x : ℚ}

theorem le_roundHalfEven {n : ℤ} (below : (n : ℚ) ≤ x) : n ≤ roundHalfEven x := by
  have whole : n ≤ ⌊x⌋ := Int.le_floor.mpr below
  simp only [roundHalfEven]
  split_ifs <;> omega

theorem roundHalfEven_le {n : ℤ} (above : x ≤ n) : roundHalfEven x ≤ n := by
  have whole : ⌊x⌋ ≤ n := by
    have := Int.floor_le x
    exact_mod_cast this.trans above
  simp only [roundHalfEven]
  split_ifs with small large
  · exact whole
  · have fraction : (⌊x⌋ : ℚ) < n := by linarith
    have : ⌊x⌋ < n := by exact_mod_cast fraction
    omega
  · have fraction : (⌊x⌋ : ℚ) < n := by linarith
    have : ⌊x⌋ < n := by exact_mod_cast fraction
    omega

theorem spacing_pos (x : ℚ) : 0 < spacing x :=
  zpow_pos (by norm_num) _

/-- What is a whole number of spacings is a double. -/
def OnGrid (value x : ℚ) : Prop := ∃ count : ℤ, value = count * spacing x

theorem OnGrid.le_nearest {value x : ℚ} (grid : OnGrid value x) (below : value ≤ x) :
    value ≤ nearest x := by
  obtain ⟨count, rfl⟩ := grid
  have positive := spacing_pos x
  have counted : count ≤ roundHalfEven (x / spacing x) :=
    le_roundHalfEven ((le_div_iff₀ positive).mpr below)
  exact mul_le_mul_of_nonneg_right (by exact_mod_cast counted) positive.le

theorem OnGrid.nearest_le {value x : ℚ} (grid : OnGrid value x) (above : x ≤ value) :
    nearest x ≤ value := by
  obtain ⟨count, rfl⟩ := grid
  have positive := spacing_pos x
  have counted : roundHalfEven (x / spacing x) ≤ count :=
    roundHalfEven_le ((div_le_iff₀ positive).mpr above)
  exact mul_le_mul_of_nonneg_right (by exact_mod_cast counted) positive.le

/-- A power of two is a double. -/
theorem onGrid_log (x : ℚ) : OnGrid (2 ^ Int.log 2 x) x := by
  refine ⟨2 ^ 52, ?_⟩
  rw [spacing, Int.cast_pow, Int.cast_ofNat, ← zpow_natCast, ← zpow_add₀ (by norm_num)]
  congr 1
  omega

/-- Below `2 ^ 53` the spacing divides one. -/
theorem onGrid_natCast (n : ℕ) (small : Int.log 2 x ≤ 52) : OnGrid n x := by
  have exponent : ((52 - Int.log 2 x).toNat : ℤ) = 52 - Int.log 2 x := Int.toNat_of_nonneg (by omega)
  refine ⟨n * 2 ^ (52 - Int.log 2 x).toNat, ?_⟩
  rw [spacing, Int.cast_mul, Int.cast_natCast, Int.cast_pow, Int.cast_ofNat, ← zpow_natCast,
    exponent, mul_assoc, ← zpow_add₀ (by norm_num)]
  simp

theorem natCast_le_nearest {n : ℕ} (small : n ≤ 2 ^ 53) (positive : 0 < x)
    (below : (n : ℚ) ≤ x) : (n : ℚ) ≤ nearest x := by
  by_cases exponent : Int.log 2 x ≤ 52
  · exact (onGrid_natCast n exponent).le_nearest below
  · have power := (onGrid_log x).le_nearest (Int.zpow_log_le_self (by norm_num) positive)
    have large : (2 : ℚ) ^ (53 : ℤ) ≤ 2 ^ Int.log 2 x :=
      zpow_le_zpow_right₀ (by norm_num) (by omega)
    have whole : (n : ℚ) ≤ 2 ^ 53 := by exact_mod_cast small
    exact whole.trans (le_trans (by exact_mod_cast large) power)

theorem nearest_le_natCast {n : ℕ} (small : n ≤ 2 ^ 53) (positive : 0 < x)
    (above : x ≤ n) : nearest x ≤ n := by
  by_cases exponent : Int.log 2 x ≤ 52
  · exact (onGrid_natCast n exponent).nearest_le above
  · have power := Int.zpow_log_le_self (b := 2) (r := x) (by norm_num) positive
    have large : (2 : ℚ) ^ (53 : ℤ) ≤ 2 ^ Int.log 2 x :=
      zpow_le_zpow_right₀ (by norm_num) (by omega)
    have whole : (n : ℚ) ≤ 2 ^ 53 := by exact_mod_cast small
    have least : (2 : ℚ) ^ (53 : ℤ) = 2 ^ 53 := by norm_num
    have same : (n : ℚ) = 2 ^ Int.log 2 x := by
      have reach : (2 : ℚ) ^ Int.log 2 x ≤ n := le_trans (by exact_mod_cast power) above
      linarith
    exact (same ▸ onGrid_log x).nearest_le above

end CityPods.Foundation.Doubles
