import Mathlib.Algebra.Order.Round
import Mathlib.Data.Int.Log
import Mathlib.Data.Rat.Floor
import Mathlib.Tactic.Linarith
import Mathlib.Tactic.Ring

/-!
# Rounding to a double

Doubles have 53 significant bits. A sum of two of them is the exact one, rounded to the nearest
double, and to the one with an even last bit when there are two. Values are exact rationals here;
those too large for a double are left out.

* `roundEven`: the nearest integer.
* `Double.ulp`, `Double.round`: the place of the last bit, and the nearest double; `round_eq`.
* `Double.abs_round_sub_le`: the rounding error of values below a power of two.
-/

namespace Lib

/-- The nearest integer, the even one of two. -/
def roundEven (x : ℚ) : ℤ :=
  if x - ⌊x⌋ < 1 / 2 then ⌊x⌋
  else if 1 / 2 < x - ⌊x⌋ then ⌊x⌋ + 1
  else if ⌊x⌋ % 2 = 0 then ⌊x⌋ else ⌊x⌋ + 1

theorem abs_roundEven_sub_le (x : ℚ) : |roundEven x - x| ≤ 1 / 2 := by
  have h₀ := Int.floor_le x
  have h₁ := Int.lt_floor_add_one x
  rw [abs_le]
  unfold roundEven
  split
  · constructor <;> linarith
  · split
    · push_cast
      constructor <;> linarith
    · split
      · constructor <;> linarith
      · push_cast
        constructor <;> linarith

/-- No other integer is nearer than a half. -/
theorem roundEven_eq {x : ℚ} {m : ℤ} (h : |x - m| < 1 / 2) : roundEven x = m := by
  obtain ⟨h₁, h₂⟩ := abs_lt.1 h
  obtain ⟨h₃, h₄⟩ := abs_le.1 (abs_roundEven_sub_le x)
  have hlt : (roundEven x : ℚ) < m + 1 := by linarith
  have hgt : (m : ℚ) < roundEven x + 1 := by linarith
  norm_cast at hlt hgt
  omega

namespace Double

variable {x : ℚ} {n : ℤ}

/-- The exponent of the last bit. -/
def ulpExponent (x : ℚ) : ℤ := max (Int.log 2 |x| - 52) (-1074)

/-- The place value of the last bit. -/
def ulp (x : ℚ) : ℚ := 2 ^ ulpExponent x

/-- The nearest double. -/
def round (x : ℚ) : ℚ := roundEven (x / ulp x) * ulp x

theorem ulp_pos (x : ℚ) : 0 < ulp x := zpow_pos two_pos _

/-- The nearest double among those of the power of two below the value. -/
theorem round_eq {m : ℤ} (h₁ : 2 ^ n ≤ |x|) (h₂ : |x| < 2 ^ (n + 1)) (hn : -1022 ≤ n)
    (hm : |x / 2 ^ (n - 52) - m| < 1 / 2) : round x = m * 2 ^ (n - 52) := by
  have hx : 0 < |x| := (zpow_pos two_pos n).trans_le h₁
  have hlog : Int.log 2 |x| = n := by
    have hle := (Int.zpow_le_iff_le_log one_lt_two hx).1 (by exact_mod_cast h₁)
    have hlt := (Int.lt_zpow_iff_log_lt one_lt_two hx).1 (by exact_mod_cast h₂)
    omega
  have hu : ulp x = 2 ^ (n - 52) := by
    rw [ulp, ulpExponent, hlog, max_eq_left (by omega)]
  rw [round, hu, roundEven_eq hm]

theorem abs_round_sub_le_ulp (x : ℚ) : |round x - x| ≤ ulp x / 2 := by
  have hu := ulp_pos x
  have hr := abs_roundEven_sub_le (x / ulp x)
  have hx : round x - x = (roundEven (x / ulp x) - x / ulp x) * ulp x := by
    rw [round, sub_mul, div_mul_cancel₀ x hu.ne']
  rw [hx, abs_mul, abs_of_pos hu]
  linarith [mul_le_mul_of_nonneg_right hr hu.le]

theorem ulp_le (hx : |x| < 2 ^ n) (hn : 0 < n) : ulp x ≤ 2 ^ (n - 53) := by
  refine zpow_le_zpow_right₀ one_le_two (max_le ?_ (by omega))
  rcases (abs_nonneg x).eq_or_lt with h | h
  · have hlog : Int.log 2 |x| = 0 := by rw [← h, Int.log_zero_right]
    omega
  · have hlog : Int.log 2 |x| < n := (Int.lt_zpow_iff_log_lt one_lt_two h).1 (by exact_mod_cast hx)
    omega

/-- Values below `2 ^ n` are rounded by at most half the last bit of the greatest of them. -/
theorem abs_round_sub_le (hx : |x| < 2 ^ n) (hn : 0 < n) : |round x - x| ≤ 2 ^ (n - 54) := by
  have h : (2 : ℚ) ^ (n - 53) = 2 ^ (n - 54) * 2 := by
    rw [← zpow_add_one₀ two_ne_zero]
    congr 1
    omega
  linarith [abs_round_sub_le_ulp x, ulp_le hx hn]

end Double

end Lib
