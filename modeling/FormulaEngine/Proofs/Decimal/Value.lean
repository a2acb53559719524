import FormulaEngine.Decimal.Basic
import Mathlib.Data.Int.Log
import Mathlib.Data.Rat.Floor
import Mathlib.Tactic.Linarith
import Mathlib.Tactic.NormNum
import Mathlib.Tactic.Ring

/-!
# The values of decimals

A decimal stands for a rational number, and sums, differences, products and
remainders of decimals stand for those of the rational numbers.  What an
operation does to the scale leaves the value alone: a decimal taken to a larger
scale, widened by zeros or stripped of them keeps its value.

Storing a number keeps its value if the scale fits its word.  The scale of a sum,
a difference or a remainder is that of an operand and always fits; that of a product
or of a stripped decimal may not.
-/

namespace FormulaEngine

/-- The integer part of a rational number, truncated toward zero. -/
def truncated (x : ℚ) : ℤ :=
  if x < 0 then ⌈x⌉ else ⌊x⌋

theorem truncated_intCast (value : ℤ) : truncated value = value := by
  simp [truncated]

theorem truncated_neg (x : ℚ) : truncated (-x) = -truncated x := by
  rcases lt_trichotomy x 0 with negative | rfl | positive
  · simp [truncated, negative, negative.le.not_gt, Int.floor_neg]
  · simp [truncated]
  · simp [truncated, positive, positive.le.not_gt, Int.ceil_neg]

theorem truncated_natCast_div (dividend divisor : ℕ) :
    truncated ((dividend : ℚ) / divisor) = (dividend / divisor : ℕ) := by
  have nonnegative : ¬ (dividend : ℚ) / divisor < 0 :=
    not_lt.mpr (by positivity)
  rw [truncated, if_neg nonnegative]
  exact Rat.floor_intCast_div_natCast dividend divisor

/-- The truncated quotient of two integers. -/
theorem truncated_intCast_div (dividend divisor : ℤ) :
    truncated ((dividend : ℚ) / divisor) = dividend.tdiv divisor := by
  obtain ⟨dividend, rfl | rfl⟩ := dividend.eq_nat_or_neg <;>
    obtain ⟨divisor, rfl | rfl⟩ := divisor.eq_nat_or_neg <;>
      simp [neg_div, div_neg, truncated_neg, truncated_natCast_div]

/-! ### Scales in their word -/

namespace ExactDecimal

theorem fits_iff {value : ExactDecimal} :
    value.Fits ↔ -2 ^ 63 ≤ value.scale ∧ value.scale < 2 ^ 63 := by
  simp only [Fits, Decimal.scaleFits, Bool.and_eq_true, decide_eq_true_eq,
    Int64.toInt_minValue, Int64.toInt_maxValue]
  omega

theorem store_scale {value : ExactDecimal} (fits : value.Fits) :
    value.store.scale = value.scale :=
  Int64.toInt_ofInt_of_le (fits_iff.mp fits).1 (fits_iff.mp fits).2

end ExactDecimal

namespace Decimal

theorem le_scale (value : Decimal) : -2 ^ 63 ≤ value.scale :=
  value.scaleWord.le_toInt

theorem scale_lt (value : Decimal) : value.scale < 2 ^ 63 :=
  value.scaleWord.toInt_lt

@[simp]
theorem store_exact (value : Decimal) : value.exact.store = value := by
  simp [exact, scale, ExactDecimal.store, Int64.ofInt_toInt]

theorem exact_store {value : ExactDecimal} (fits : value.Fits) :
    value.store.exact = value := by
  rw [exact, ExactDecimal.store_scale fits, ExactDecimal.store_coefficient]

end Decimal

/-! ### Values -/

/-- The rational number that a coefficient with a scale stands for. -/
def ExactDecimal.toRat (value : ExactDecimal) : ℚ :=
  value.coefficient * 10 ^ (-value.scale)

namespace Decimal

/-- The rational number that a decimal stands for. -/
def toRat (value : Decimal) : ℚ :=
  value.coefficient * 10 ^ (-value.scale)

theorem toRat_exact (value : Decimal) : value.exact.toRat = value.toRat :=
  rfl

theorem toRat_ofInt (value : ℤ) : (ofInt value).toRat = value := by
  simp [toRat, ofInt, scale]

theorem toRat_zero : zero.toRat = 0 := by
  simp [zero, toRat_ofInt]

theorem ten_zpow_pos (exponent : ℤ) : (0 : ℚ) < 10 ^ exponent :=
  zpow_pos (by norm_num) exponent

theorem toRat_eq_zero {value : Decimal} :
    value.toRat = 0 ↔ value.coefficient = 0 := by
  simp [toRat, (ten_zpow_pos _).ne']

theorem isZero_iff {value : Decimal} :
    value.isZero = true ↔ value.toRat = 0 := by
  simp [isZero, toRat_eq_zero]

end Decimal

namespace ExactDecimal

/-- A scale that fits is stored as it is, and the value with it. -/
theorem toRat_store {value : ExactDecimal} (fits : value.Fits) :
    value.store.toRat = value.toRat := by
  rw [Decimal.toRat, store_scale fits, store_coefficient, toRat]

/-- Whatever becomes of the scale, only zero is stored as zero. -/
theorem toRat_store_eq_zero {value : ExactDecimal} :
    value.store.toRat = 0 ↔ value.toRat = 0 := by
  rw [Decimal.toRat_eq_zero, store_coefficient]
  simp [toRat, (Decimal.ten_zpow_pos _).ne']

end ExactDecimal

namespace Decimal

/-- A decimal keeps its value at a larger scale. -/
theorem toRat_coefficientAt {value : Decimal} {scale : ℤ}
    (isLarger : value.scale ≤ scale) :
    (⟨value.coefficientAt scale, scale⟩ : ExactDecimal).toRat = value.toRat := by
  obtain ⟨places, rfl⟩ := Int.le.dest isLarger
  rw [coefficientAt_eq, add_sub_cancel_left, Int.toNat_natCast]
  simp only [ExactDecimal.toRat, toRat, neg_add]
  rw [zpow_add₀ (by norm_num), zpow_neg _ (places : ℤ), zpow_natCast]
  push_cast
  field_simp

/-- The coefficient at a larger scale is the value in units of that scale. -/
theorem intCast_coefficientAt {value : Decimal} {scale : ℤ}
    (isLarger : value.scale ≤ scale) :
    (value.coefficientAt scale : ℚ) = value.toRat * 10 ^ scale := by
  rw [← toRat_coefficientAt isLarger, ExactDecimal.toRat, zpow_neg]
  field_simp

theorem toRat_widen {value : Decimal} {places : ℕ}
    (fits : value.scale + places < 2 ^ 63) :
    (value.widen places).toRat = value.toRat := by
  have stored : (⟨value.coefficient * 10 ^ places, value.scale + places⟩ :
      ExactDecimal).Fits :=
    ExactDecimal.fits_iff.mpr
      ⟨value.le_scale.trans (Int.le_add_of_nonneg_right (Int.natCast_nonneg _)), fits⟩
  have larger : value.scale ≤ value.scale + places := by omega
  rw [widen, ExactDecimal.toRat_store stored, ← toRat_coefficientAt larger,
    coefficientAt_eq, add_sub_cancel_left, Int.toNat_natCast]

theorem toRat_plusZero (value other : Decimal) :
    (value.plusZero other.scale).toRat = value.toRat := by
  have := value.scale_lt
  have := other.scale_lt
  exact toRat_widen (by omega)

/-- The larger scale of two decimals fits. -/
theorem fits_max (coefficient : ℤ) (left right : Decimal) :
    (⟨coefficient, max left.scale right.scale⟩ : ExactDecimal).Fits :=
  ExactDecimal.fits_iff.mpr
    ⟨left.le_scale.trans (le_max_left _ _), max_lt left.scale_lt right.scale_lt⟩

theorem toRat_add (left right : Decimal) :
    (left.add right).toRat = left.toRat + right.toRat := by
  unfold add
  split_ifs with rightZero leftZero
  · rw [toRat_plusZero, isZero_iff.mp rightZero, add_zero]
  · rw [toRat_plusZero, isZero_iff.mp leftZero, zero_add]
  · rw [ExactDecimal.toRat_store (fits_max _ left right),
      ← toRat_coefficientAt (le_max_left left.scale right.scale),
      ← toRat_coefficientAt (le_max_right left.scale right.scale)]
    simp only [ExactDecimal.toRat]
    push_cast
    ring

theorem toRat_subtract (left right : Decimal) :
    (left.subtract right).toRat = left.toRat - right.toRat := by
  rw [subtract, ExactDecimal.toRat_store (fits_max _ left right),
    ← toRat_coefficientAt (le_max_left left.scale right.scale),
    ← toRat_coefficientAt (le_max_right left.scale right.scale)]
  simp only [ExactDecimal.toRat]
  push_cast
  ring

theorem ten_pow_trailingZeros_dvd (value : ℕ) :
    10 ^ trailingZeros value ∣ value := by
  fun_induction trailingZeros value with
  | case1 => exact one_dvd _
  | case2 value nonzero endsInZero ih =>
      obtain ⟨rest, isRest⟩ := ih
      refine ⟨rest, ?_⟩
      rw [pow_succ', mul_assoc, ← isRest]
      omega
  | case3 => exact one_dvd _

theorem ten_pow_trailingZeros_dvd_coefficient (value : Decimal) :
    10 ^ trailingZeros value.coefficient.natAbs ∣ value.coefficient := by
  exact_mod_cast Int.natCast_dvd.mpr (ten_pow_trailingZeros_dvd _)

theorem toRat_strippedExact (value : Decimal) :
    value.strippedExact.toRat = value.toRat := by
  unfold strippedExact
  split_ifs with isZero
  · rw [toRat_exact, toRat_zero, isZero_iff.mp isZero]
  -- The zeros, put back, make up the coefficient.
  obtain ⟨rest, isRest⟩ := value.ten_pow_trailingZeros_dvd_coefficient
  set zeros := trailingZeros value.coefficient.natAbs
  simp only [ExactDecimal.toRat, toRat, neg_sub]
  rw [isRest, Int.mul_ediv_cancel_left _ (by positivity), sub_eq_add_neg,
    zpow_add₀ (by norm_num), zpow_natCast]
  push_cast
  ring

theorem toRat_of_isUnit {value : Decimal} (unit : value.isUnit = true) :
    value.toRat = 1 := by
  simp only [isUnit, Bool.and_eq_true, decide_eq_true_eq, beq_iff_eq] at unit
  obtain ⟨⟨nonnegative, -⟩, coefficient⟩ := unit
  rw [toRat, coefficient]
  push_cast
  rw [← zpow_natCast, Int.toNat_of_nonneg nonnegative,
    ← zpow_add₀ (by norm_num), add_neg_cancel, zpow_zero]

theorem toRat_multiplyExact (left right : Decimal) :
    (left.multiplyExact right).toRat = left.toRat * right.toRat := by
  unfold multiplyExact
  split_ifs with leftUnit rightUnit
  · rw [toRat_strippedExact, toRat_of_isUnit leftUnit, one_mul]
  · rw [toRat_strippedExact, toRat_of_isUnit rightUnit, mul_one]
  · simp only [ExactDecimal.toRat, toRat, neg_add]
    rw [zpow_add₀ (by norm_num)]
    push_cast
    ring

theorem toRat_multiply {left right : Decimal}
    (fits : (left.multiplyExact right).Fits) :
    (left.multiply right).toRat = left.toRat * right.toRat := by
  rw [multiply, ExactDecimal.toRat_store fits, toRat_multiplyExact]

theorem trailingZeros_ten_pow (places : ℕ) :
    trailingZeros (10 ^ places) = places := by
  induction places with
  | zero => simp [trailingZeros]
  | succ places ih =>
      rw [trailingZeros, if_neg (by positivity), pow_succ,
        if_pos (Nat.mul_mod_left _ _), Nat.mul_div_cancel _ (by norm_num), ih]

theorem strippedExact_of_isUnit {value : Decimal} (unit : value.isUnit = true) :
    value.strippedExact = one.exact := by
  simp only [isUnit, Bool.and_eq_true, decide_eq_true_eq, beq_iff_eq] at unit
  obtain ⟨⟨nonnegative, -⟩, isCoefficient⟩ := unit
  have nonzero : value.isZero = false := by
    rw [isZero, isCoefficient]
    exact beq_false_of_ne (by positivity)
  have zeros : trailingZeros value.coefficient.natAbs = value.scale.toNat := by
    rw [isCoefficient, Int.natAbs_pow]
    exact trailingZeros_ten_pow _
  rw [strippedExact, nonzero, if_neg (by decide), zeros, isCoefficient]
  dsimp only
  rw [Int.ediv_self (by positivity), Int.toNat_of_nonneg nonnegative, sub_self]
  rfl

/-- Factors commute, also two that are both written as one. -/
theorem multiplyExact_comm (left right : Decimal) :
    left.multiplyExact right = right.multiplyExact left := by
  unfold multiplyExact
  split_ifs with leftUnit rightUnit
  · rw [strippedExact_of_isUnit leftUnit, strippedExact_of_isUnit rightUnit]
  · rfl
  · rfl
  · rw [mul_comm, add_comm left.scale]

/-- Summands commute.  Two zeros may differ in their scales. -/
theorem add_comm_of_nonzero {left right : Decimal}
    (nonzero : left.isZero = false ∨ right.isZero = false) :
    left.add right = right.add left := by
  unfold add
  split_ifs with rightZero leftZero
  · simp [leftZero, rightZero] at nonzero
  · rfl
  · rfl
  · dsimp only
    rw [max_comm, add_comm (left.coefficientAt _)]

/-- The remainder of a truncated division; division by zero leaves the whole
dividend. -/
theorem toRat_remainder (left right : Decimal) :
    (left.remainder right).toRat =
      left.toRat - right.toRat * truncated (left.toRat / right.toRat) := by
  set scale := max left.scale right.scale
  have leftUnits : (left.coefficientAt scale : ℚ) = left.toRat * 10 ^ scale :=
    intCast_coefficientAt (le_max_left _ _)
  have rightUnits :
      (right.coefficientAt scale : ℚ) = right.toRat * 10 ^ scale :=
    intCast_coefficientAt (le_max_right _ _)
  have quotient : truncated (left.toRat / right.toRat) =
      (left.coefficientAt scale).tdiv (right.coefficientAt scale) := by
    rw [← truncated_intCast_div, leftUnits, rightUnits,
      mul_div_mul_right _ _ (ten_zpow_pos _).ne']
  have rest : (left.remainder right).toRat =
      (left.coefficientAt scale).tmod (right.coefficientAt scale) *
        10 ^ (-scale) :=
    ExactDecimal.toRat_store (fits_max _ left right)
  rw [rest, quotient, Int.tmod_def]
  push_cast
  rw [leftUnits, rightUnits, zpow_neg]
  field_simp

theorem toRat_eq_div {value : Decimal} {places : ℕ}
    (isPlaces : value.scale = places) :
    value.toRat = (value.coefficient : ℚ) / ((10 ^ places : ℤ) : ℚ) := by
  rw [toRat, isPlaces, zpow_neg, div_eq_mul_inv]
  simp

/-- The integer part of a decimal is that of its value. -/
theorem truncate_eq (value : Decimal) :
    value.truncate = truncated value.toRat := by
  unfold truncate
  split_ifs with integral small
  · rw [← truncated_intCast (value.coefficientAt 0),
      intCast_coefficientAt integral, zpow_zero, mul_one]
  all_goals
    obtain ⟨places, isPlaces⟩ :=
      Int.eq_ofNat_of_zero_le (by omega : 0 ≤ value.scale)
    rw [toRat_eq_div isPlaces, truncated_intCast_div]
  · have bound : value.coefficient.natAbs < 10 ^ places :=
      (Text.lt_ten_pow_digitCount _).trans_le
        (Nat.pow_le_pow_right (by omega) (by unfold digitCount at small; omega))
    refine (Int.natAbs_eq_zero.mp ?_).symm
    rw [Int.natAbs_tdiv]
    exact Nat.div_eq_of_lt (by simpa [Int.natAbs_pow] using bound)
  · simp [isPlaces]

/-! ### The leading digit -/

theorem abs_toRat (value : Decimal) :
    |value.toRat| = (value.coefficient.natAbs : ℚ) * 10 ^ (-value.scale) := by
  rw [toRat, abs_mul, abs_of_pos (ten_zpow_pos _), Nat.cast_natAbs, Int.cast_abs]

theorem ten_pow_pred_digitCount_le {value : Decimal}
    (nonzero : value.coefficient ≠ 0) :
    10 ^ (value.digitCount - 1) ≤ value.coefficient.natAbs := by
  unfold digitCount
  rcases Nat.eq_zero_or_pos (Text.digitCount value.coefficient.natAbs - 1) with
    single | several
  · rw [single, pow_zero]
    omega
  · refine not_lt.mp fun less => ?_
    have := (Text.digitCount_le_iff several).mpr less
    omega

/-- The position of the leading digit is found from the number of digits and the
scale. -/
theorem log_abs_toRat {value : Decimal} (nonzero : value.coefficient ≠ 0) :
    Int.log 10 |value.toRat| = value.digitCount - 1 - value.scale := by
  have countPos : 0 < value.digitCount := Text.digitCount_pos _
  have positive : 0 < |value.toRat| :=
    abs_pos.mpr (mt toRat_eq_zero.mp nonzero)
  apply le_antisymm
  · rw [← Int.lt_add_one_iff, ← Int.lt_zpow_iff_log_lt (by norm_num) positive,
      abs_toRat]
    calc (value.coefficient.natAbs : ℚ) * 10 ^ (-value.scale)
        < 10 ^ (value.digitCount : ℤ) * 10 ^ (-value.scale) := by
          refine mul_lt_mul_of_pos_right ?_ (ten_zpow_pos _)
          exact_mod_cast Text.lt_ten_pow_digitCount value.coefficient.natAbs
      _ = 10 ^ ((value.digitCount : ℤ) - 1 - value.scale + 1) := by
          rw [← zpow_add₀ (by norm_num)]
          congr 1
          ring
  · rw [← Int.zpow_le_iff_le_log (by norm_num) positive, abs_toRat]
    calc (10 : ℚ) ^ ((value.digitCount : ℤ) - 1 - value.scale)
        = 10 ^ (((value.digitCount - 1 : ℕ) : ℤ)) * 10 ^ (-value.scale) := by
          rw [← zpow_add₀ (by norm_num)]
          congr 1
          omega
      _ ≤ value.coefficient.natAbs * 10 ^ (-value.scale) := by
          refine mul_le_mul_of_nonneg_right ?_ (ten_zpow_pos _).le
          exact_mod_cast ten_pow_pred_digitCount_le nonzero

end Decimal

end FormulaEngine
