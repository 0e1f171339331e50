import Mathlib.Data.Int.Log
import Mathlib.Data.Rat.Floor
import Mathlib.Tactic.Linarith
import Mathlib.Tactic.Positivity
import Mathlib.Tactic.FieldSimp
import Mathlib.Tactic.Ring

/-!
# Rounding to double precision

A number is rounded to a significand of 53 bits, to the nearest one and on a tie
to the even one.  The exponents are not bounded: this is the arithmetic of doubles
where nothing overflows and nothing is subnormal.  Rounding changes a number by at
most its `2 ^ 53`-th part.
-/

namespace Doubles

/-- The nearest integer, on a tie the even one. -/
def roundHalfEven (q : ℚ) : ℤ :=
  if q - ⌊q⌋ < 1 / 2 then ⌊q⌋
  else if 1 / 2 < q - ⌊q⌋ then ⌊q⌋ + 1
  else if ⌊q⌋ % 2 = 0 then ⌊q⌋ else ⌊q⌋ + 1

/-- The unit in the last place. -/
def ulp (q : ℚ) : ℚ := 2 ^ (Int.log 2 |q| - 52)

/-- The double nearest to a number. -/
def toDouble (q : ℚ) : ℚ := if q = 0 then 0 else roundHalfEven (q / ulp q) * ulp q

theorem abs_roundHalfEven_sub_le (q : ℚ) : |roundHalfEven q - q| ≤ 1 / 2 := by
  have hfloor := Int.floor_le q
  have hnext := Int.lt_floor_add_one q
  unfold roundHalfEven
  rw [abs_le]
  split_ifs <;> push_cast <;> constructor <;> linarith

theorem ulp_pos (q : ℚ) : 0 < ulp q := by
  unfold ulp
  exact zpow_pos two_pos _

/-- The last place is the 53rd or a later one. -/
theorem ulp_le {q : ℚ} (hq : q ≠ 0) : ulp q ≤ |q| / 2 ^ 52 := by
  have hlog := Int.zpow_log_le_self (R := ℚ) (b := 2) Nat.one_lt_two (abs_pos.mpr hq)
  rw [ulp, zpow_sub₀ two_ne_zero]
  exact div_le_div_of_nonneg_right (by exact_mod_cast hlog) (by positivity)

/-- **The error of rounding.** -/
theorem abs_toDouble_sub_le (q : ℚ) : |toDouble q - q| ≤ |q| / 2 ^ 53 := by
  rcases eq_or_ne q 0 with rfl | hq
  · simp [toDouble]
  have hpos := ulp_pos q
  have hsplit : toDouble q - q = (roundHalfEven (q / ulp q) - q / ulp q) * ulp q := by
    rw [toDouble, if_neg hq, sub_mul, div_mul_cancel₀ q hpos.ne']
  calc
    |toDouble q - q| = |roundHalfEven (q / ulp q) - q / ulp q| * ulp q := by
      rw [hsplit, abs_mul, abs_of_pos hpos]
    _ ≤ 1 / 2 * (|q| / 2 ^ 52) :=
      mul_le_mul (abs_roundHalfEven_sub_le _) (ulp_le hq) hpos.le (by positivity)
    _ = |q| / 2 ^ 53 := by ring

/-- A rounded number is near to what its argument is near to. -/
theorem abs_toDouble_sub_le_of_near {q v bound error : ℚ} (hnear : |q - v| ≤ error)
    (hbound : |v| ≤ bound) : |toDouble q - v| ≤ error + (bound + error) / 2 ^ 53 := by
  have hsize : |q| ≤ bound + error := by
    calc
      |q| = |v + (q - v)| := by rw [add_sub_cancel]
      _ ≤ |v| + |q - v| := abs_add_le _ _
      _ ≤ bound + error := add_le_add hbound hnear
  calc
    |toDouble q - v| ≤ |toDouble q - q| + |q - v| := abs_sub_le _ _ _
    _ ≤ (bound + error) / 2 ^ 53 + error :=
      add_le_add ((abs_toDouble_sub_le q).trans
        (div_le_div_of_nonneg_right hsize (by positivity))) hnear
    _ = error + (bound + error) / 2 ^ 53 := add_comm _ _

/-- A fraction with a small denominator lies between the integers around a number that is
close to it. -/
theorem floor_near {q v : ℚ} {m : ℤ} {d : ℕ} (hd : 0 < d) (hv : v = m / d)
    (hnear : |q - v| < 1 / d) : ⌊q⌋ ≤ v ∧ v ≤ ⌊q⌋ + 1 := by
  have hdpos : (0 : ℚ) < d := by exact_mod_cast hd
  obtain ⟨hlow, hhigh⟩ := abs_lt.mp hnear
  have hfloor := Int.floor_le q
  have hnext := Int.lt_floor_add_one q
  constructor
  · have hlt : ((⌊q⌋ * d : ℤ) : ℚ) < ((m + 1 : ℤ) : ℚ) := by
      push_cast
      calc
        (⌊q⌋ : ℚ) * d < (v + 1 / d) * d := by
          apply mul_lt_mul_of_pos_right _ hdpos
          linarith
        _ = m + 1 := by
          rw [hv]
          field_simp
    rw [hv, le_div_iff₀ hdpos]
    exact_mod_cast Int.lt_add_one_iff.mp (by exact_mod_cast hlt)
  · have hlt : ((m : ℤ) : ℚ) < (((⌊q⌋ + 1) * d + 1 : ℤ) : ℚ) := by
      push_cast
      calc
        (m : ℚ) = v * d := by
          rw [hv]
          field_simp
        _ < (⌊q⌋ + 1 + 1 / d) * d := by
          apply mul_lt_mul_of_pos_right _ hdpos
          linarith
        _ = (⌊q⌋ + 1) * d + 1 := by field_simp
    rw [hv, div_le_iff₀ hdpos]
    exact_mod_cast Int.lt_add_one_iff.mp (by exact_mod_cast hlt)

end Doubles
