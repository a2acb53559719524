import FormulaEngine.Proofs.Decimal.Value

/-!
# The order of decimals

Decimals are compared by their signs, then by the positions of their leading
digits, and digit by digit only where these agree.  All three steps together
compare the values.
-/

namespace FormulaEngine

/-- Two comparisons agree where both strict orders do. -/
theorem compare_congr {First Second : Type} [LinearOrder First]
    [LinearOrder Second] {a b : First} {c d : Second} (less : a < b ↔ c < d)
    (greater : b < a ↔ d < c) : compare a b = compare c d := by
  rcases lt_trichotomy a b with before | same | after
  · rw [compare_lt_iff_lt.mpr before, compare_lt_iff_lt.mpr (less.mp before)]
  · have same' : c = d := le_antisymm
      (not_lt.mp fun after => (greater.mpr after).ne' same)
      (not_lt.mp fun before => (less.mpr before).ne same)
    rw [compare_eq_iff_eq.mpr same, compare_eq_iff_eq.mpr same']
  · rw [compare_gt_iff_gt.mpr after, compare_gt_iff_gt.mpr (greater.mp after)]

namespace Decimal

theorem toRat_neg_iff {value : Decimal} :
    value.toRat < 0 ↔ value.coefficient < 0 := by
  simp [toRat, mul_neg_iff, ten_zpow_pos, (ten_zpow_pos _).le.not_gt]

theorem toRat_pos_iff {value : Decimal} :
    0 < value.toRat ↔ 0 < value.coefficient := by
  simp [toRat, ten_zpow_pos]

/-- The digits of two decimals at a common scale. -/
theorem compare_coefficientAt {left right : Decimal} {scale : ℤ}
    (leftLarger : left.scale ≤ scale) (rightLarger : right.scale ≤ scale) :
    compare (left.coefficientAt scale).natAbs
        (right.coefficientAt scale).natAbs =
      compare |left.toRat| |right.toRat| := by
  have inUnits {value : Decimal} (larger : value.scale ≤ scale) :
      ((value.coefficientAt scale).natAbs : ℚ) = |value.toRat| * 10 ^ scale := by
    rw [Nat.cast_natAbs, Int.cast_abs, intCast_coefficientAt larger, abs_mul,
      abs_of_pos (ten_zpow_pos scale)]
  apply compare_congr <;>
    rw [← Nat.cast_lt (α := ℚ), inUnits leftLarger, inUnits rightLarger,
      mul_lt_mul_iff_of_pos_right (ten_zpow_pos scale)]

theorem compareMagnitudes_eq {left right : Decimal}
    (leftNonzero : left.coefficient ≠ 0) (rightNonzero : right.coefficient ≠ 0) :
    left.compareMagnitudes right = compare |left.toRat| |right.toRat| := by
  -- A leading digit further to the left outweighs all digits of the other.
  have position {first second : Decimal} (firstNonzero : first.coefficient ≠ 0)
      (secondNonzero : second.coefficient ≠ 0)
      (before : (first.digitCount : ℤ) - first.scale <
        second.digitCount - second.scale) : |first.toRat| < |second.toRat| := by
    refine not_le.mp fun atMost => ?_
    have := Int.log_mono_right (b := 10)
      (abs_pos.mpr (mt toRat_eq_zero.mp secondNonzero)) atMost
    rw [log_abs_toRat firstNonzero, log_abs_toRat secondNonzero] at this
    omega
  unfold compareMagnitudes
  rcases lt_trichotomy ((left.digitCount : ℤ) - left.scale)
    (right.digitCount - right.scale) with before | same | after
  · rw [compare_lt_iff_lt.mpr before, compare_lt_iff_lt.mpr
      (position leftNonzero rightNonzero before)]
    rfl
  · rw [compare_eq_iff_eq.mpr same, compare_coefficientAt (le_max_left _ _)
      (le_max_right _ _)]
    rfl
  · rw [compare_gt_iff_gt.mpr after, compare_gt_iff_gt.mpr
      (position rightNonzero leftNonzero after)]
    rfl

theorem toRat_lt_of_sign_lt {left right : Decimal}
    (before : left.coefficient.sign < right.coefficient.sign) :
    left.toRat < right.toRat := by
  rcases lt_trichotomy left.coefficient 0 with leftNeg | leftZero | leftPos
  · have rightNonneg : 0 ≤ right.toRat := by
      refine not_lt.mp fun rightNeg => before.ne ?_
      rw [Int.sign_eq_neg_one_of_neg leftNeg,
        Int.sign_eq_neg_one_of_neg (toRat_neg_iff.mp rightNeg)]
    exact (toRat_neg_iff.mpr leftNeg).trans_le rightNonneg
  · rw [leftZero, Int.sign_zero, Int.sign_pos_iff] at before
    rw [toRat_eq_zero.mpr leftZero]
    exact toRat_pos_iff.mpr before
  · rw [Int.sign_eq_one_of_pos leftPos] at before
    rcases right.coefficient.sign_trichotomy with sign | sign | sign <;> omega

theorem compare_of_same_sign {left right : Decimal}
    (same : left.coefficient.sign = right.coefficient.sign) :
    (if left.isZero then .eq
      else if left.coefficient < 0 then compareMagnitudes right left
      else compareMagnitudes left right) = compare left.toRat right.toRat := by
  rcases lt_trichotomy left.coefficient 0 with leftNeg | leftZero | leftPos
  · rw [Int.sign_eq_neg_one_of_neg leftNeg, eq_comm,
      Int.sign_eq_neg_one_iff_neg] at same
    rw [if_neg (by simp [isZero, leftNeg.ne]), if_pos leftNeg,
      compareMagnitudes_eq same.ne leftNeg.ne,
      abs_of_neg (toRat_neg_iff.mpr leftNeg), abs_of_neg (toRat_neg_iff.mpr same)]
    exact compare_congr neg_lt_neg_iff neg_lt_neg_iff
  · rw [leftZero, Int.sign_zero, eq_comm, Int.sign_eq_zero_iff_zero] at same
    rw [if_pos (by simp [isZero, leftZero]), toRat_eq_zero.mpr leftZero,
      toRat_eq_zero.mpr same, compare_eq_iff_eq.mpr rfl]
  · rw [Int.sign_eq_one_of_pos leftPos, eq_comm, Int.sign_eq_one_iff_pos] at same
    rw [if_neg (by simp [isZero, leftPos.ne']), if_neg leftPos.not_gt,
      compareMagnitudes_eq leftPos.ne' same.ne',
      abs_of_pos (toRat_pos_iff.mpr leftPos), abs_of_pos (toRat_pos_iff.mpr same)]

/-- The order of decimals is that of their values. -/
theorem order_eq (left right : Decimal) :
    left.order right = compare left.toRat right.toRat := by
  unfold order
  rcases lt_trichotomy left.coefficient.sign right.coefficient.sign with
    before | same | after
  · rw [compare_lt_iff_lt.mpr before,
      compare_lt_iff_lt.mpr (toRat_lt_of_sign_lt before)]
    rfl
  · rw [compare_eq_iff_eq.mpr same]
    exact compare_of_same_sign same
  · rw [compare_gt_iff_gt.mpr after,
      compare_gt_iff_gt.mpr (toRat_lt_of_sign_lt after)]
    rfl

end Decimal

end FormulaEngine
