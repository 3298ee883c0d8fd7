import Mathlib.Algebra.Order.Field.Rat
import Mathlib.Data.Int.Log
import Mathlib.Data.Rat.Floor

/-!
# Binary floating point

A number in binary floating point is an integer of so many bits times a power of two. Numbers
are rationals here, and an operation of the machine is the exact operation followed by
`roundTo`, which goes to the nearest number of that precision, and to the even one of two. The
exponents are not bounded: nothing overflows, and nothing is subnormal.
-/

namespace SmartDialer.Numeric

/-- The nearest integer, and of two the even one. -/
def roundEven (q : ℚ) : ℤ :=
  if q - ⌊q⌋ < 1 / 2 then ⌊q⌋
  else if 1 / 2 < q - ⌊q⌋ then ⌊q⌋ + 1
  else if ⌊q⌋ % 2 = 0 then ⌊q⌋ else ⌊q⌋ + 1

/-- The unit in the last of `p` places. -/
def ulp (p : ℕ) (q : ℚ) : ℚ := 2 ^ (Int.log 2 |q| + 1 - p)

/-- The nearest number of `p` places. -/
def roundTo (p : ℕ) (q : ℚ) : ℚ := roundEven (q / ulp p q) * ulp p q

/-- An integer of `p` bits times a power of two. -/
def Representable (p : ℕ) (q : ℚ) : Prop := ∃ m e : ℤ, |m| < 2 ^ p ∧ q = m * 2 ^ e

@[simp] theorem roundEven_intCast (n : ℤ) : roundEven n = n := by
  rw [roundEven, if_pos (by simp)]
  exact Int.floor_intCast n

theorem ulp_pos (p : ℕ) (q : ℚ) : 0 < ulp p q := zpow_pos rfl _

/-- A number of `p` bits has a unit that divides it. -/
theorem Representable.exists_int {p : ℕ} {q : ℚ} (h : Representable p q) :
    ∃ n : ℤ, q = n * ulp p q := by
  obtain ⟨m, e, hm, rfl⟩ := h
  rcases eq_or_ne m 0 with rfl | hne
  · exact ⟨0, by simp⟩
  have habs : |(m : ℚ) * 2 ^ e| = |(m : ℚ)| * 2 ^ e := by
    rw [abs_mul, abs_of_pos (zpow_pos (by decide : (0 : ℚ) < 2) e)]
  -- the number is less than `2 ^ (p + e)`, so its unit is at most `2 ^ e`
  have hlt : |(m : ℚ) * 2 ^ e| < ((2 : ℕ) : ℚ) ^ ((p : ℤ) + e) := by
    rw [habs, Nat.cast_ofNat, zpow_add₀ two_ne_zero, zpow_natCast]
    refine mul_lt_mul_of_pos_right ?_ (zpow_pos (by decide) e)
    exact_mod_cast hm
  have hpos : 0 < |(m : ℚ) * 2 ^ e| := by
    rw [habs]
    exact mul_pos (abs_pos.mpr (Int.cast_ne_zero.mpr hne)) (zpow_pos (by decide) e)
  have hlog := (Int.lt_zpow_iff_log_lt (by decide) hpos).mp hlt
  obtain ⟨k, hk⟩ : ∃ k : ℕ, e = k + (Int.log 2 |(m : ℚ) * 2 ^ e| + 1 - p) :=
    ⟨(e - (Int.log 2 |(m : ℚ) * 2 ^ e| + 1 - p)).toNat, by omega⟩
  refine ⟨m * 2 ^ k, ?_⟩
  calc (m : ℚ) * 2 ^ e = m * (2 ^ (k : ℤ) * 2 ^ (Int.log 2 |(m : ℚ) * 2 ^ e| + 1 - p)) := by
        rw [← zpow_add₀ two_ne_zero, ← hk]
    _ = ((m * 2 ^ k : ℤ) : ℚ) * ulp p (m * 2 ^ e) := by
        rw [ulp, zpow_natCast, ← mul_assoc]
        push_cast
        rfl

/-- **What has the precision is not rounded.** -/
theorem roundTo_of_representable {p : ℕ} {q : ℚ} (h : Representable p q) : roundTo p q = q := by
  obtain ⟨n, hn⟩ := h.exists_int
  have hquot : q / ulp p q = n := by
    rw [div_eq_iff (ulp_pos p q).ne']
    exact hn
  rw [roundTo, hquot, roundEven_intCast]
  exact hn.symm

/-! ## How far off it is -/

theorem abs_roundEven_sub_le (q : ℚ) : |roundEven q - q| ≤ 1 / 2 := by
  have hfloor : (⌊q⌋ : ℚ) ≤ q := Int.floor_le q
  have hnext : q < ⌊q⌋ + 1 := Int.lt_floor_add_one q
  rw [abs_sub_le_iff, roundEven]
  split_ifs <;> push_cast <;> constructor <;> linarith

/-- The nearest number is at most half a unit away. -/
theorem abs_roundTo_sub_le (p : ℕ) (q : ℚ) : |roundTo p q - q| ≤ ulp p q / 2 := by
  have hpos : 0 < ulp p q := ulp_pos p q
  have hscaled : roundTo p q - q = (roundEven (q / ulp p q) - q / ulp p q) * ulp p q := by
    rw [roundTo, sub_mul, div_mul_cancel₀ _ hpos.ne']
  calc |roundTo p q - q| = |roundEven (q / ulp p q) - q / ulp p q| * ulp p q := by
        rw [hscaled, abs_mul, abs_of_pos hpos]
    _ ≤ 1 / 2 * ulp p q := mul_le_mul_of_nonneg_right (abs_roundEven_sub_le _) hpos.le
    _ = ulp p q / 2 := one_div_mul_eq_div 2 _

@[simp] theorem roundTo_zero (p : ℕ) : roundTo p 0 = 0 :=
  roundTo_of_representable ⟨0, 0, by simp, by simp⟩

/-- **The relative error** is at most half a unit in the last of `p` places of one. -/
theorem abs_roundTo_sub_le_mul (p : ℕ) (q : ℚ) : |roundTo p q - q| ≤ |q| / 2 ^ p := by
  rcases eq_or_ne q 0 with rfl | hne
  · simp
  have hlog : (2 : ℚ) ^ Int.log 2 |q| ≤ |q| :=
    Int.zpow_log_le_self (by decide) (abs_pos.mpr hne)
  have hunit : ulp p q / 2 = 2 ^ Int.log 2 |q| / 2 ^ p := by
    rw [ulp, zpow_sub₀ two_ne_zero, zpow_add_one₀ two_ne_zero, zpow_natCast]
    field_simp
  calc |roundTo p q - q| ≤ ulp p q / 2 := abs_roundTo_sub_le p q
    _ = 2 ^ Int.log 2 |q| / 2 ^ p := hunit
    _ ≤ |q| / 2 ^ p := div_le_div_of_nonneg_right hlog (by positivity)

/-- The precision of a double. -/
def doublePrecision : ℕ := 53

/-- The nearest double. -/
def toDouble (q : ℚ) : ℚ := roundTo doublePrecision q

example : toDouble (1 / 10) = 3602879701896397 / 36028797018963968 := by decide +kernel

end SmartDialer.Numeric
