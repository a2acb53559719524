import FormulaEngine.Proofs.Decimal.Rounding
import Mathlib.Data.Nat.Prime.Int

/-!
# Significant digits

A rational number fits a number of digits when it is an integer of at most so
many digits, moved by a power of ten; zeros at the end do not count.  Rounding to
significant digits leaves alone what fits, and it never carries a number past one
that fits.
-/

namespace FormulaEngine

/-- A rational number that can be written with `digits` significant digits. -/
def FitsDigits (digits : ℕ) (x : ℚ) : Prop :=
  ∃ coefficient exponent : ℤ,
    |coefficient| < 10 ^ digits ∧ x = coefficient * 10 ^ exponent

section FitsDigits

variable {digits : ℕ} {x y : ℚ}

theorem FitsDigits.neg (fits : FitsDigits digits x) : FitsDigits digits (-x) := by
  obtain ⟨coefficient, exponent, few, rfl⟩ := fits
  refine ⟨-coefficient, exponent, by rwa [abs_neg], ?_⟩
  push_cast
  ring

theorem FitsDigits.mono {more : ℕ} (fits : FitsDigits digits x)
    (atMost : digits ≤ more) : FitsDigits more x := by
  obtain ⟨coefficient, exponent, few, rfl⟩ := fits
  exact ⟨coefficient, exponent,
    few.trans_le (pow_le_pow_right₀ (by norm_num) atMost), rfl⟩

theorem FitsDigits.of_single (single : FitsDigits 1 x) (limited : digits ≠ 0) :
    FitsDigits digits x :=
  single.mono (Nat.one_le_iff_ne_zero.mpr limited)

theorem fitsDigits_zero (digits : ℕ) : FitsDigits digits 0 :=
  ⟨0, 0, by positivity, by simp⟩

theorem fitsDigits_ten_zpow (exponent : ℤ) : FitsDigits 1 (10 ^ exponent) :=
  ⟨1, exponent, by norm_num, by simp⟩

/-- A number fits wherever its point stands. -/
theorem FitsDigits.mul_zpow (fits : FitsDigits digits x) (shift : ℤ) :
    FitsDigits digits (x * 10 ^ shift) := by
  obtain ⟨coefficient, exponent, few, rfl⟩ := fits
  refine ⟨coefficient, exponent + shift, few, ?_⟩
  rw [zpow_add₀ (by norm_num), mul_assoc]

/-- Whatever becomes of the scale, a number needs the same digits when stored. -/
theorem fitsDigits_toRat_store {value : ExactDecimal} :
    FitsDigits digits value.store.toRat ↔ FitsDigits digits value.toRat := by
  have moved {scale : ℤ} (other : ℤ) (fits : FitsDigits digits
      (value.coefficient * 10 ^ (-scale))) :
      FitsDigits digits (value.coefficient * 10 ^ (-other)) := by
    have := fits.mul_zpow (scale - other)
    rwa [mul_assoc, ← zpow_add₀ (by norm_num), ← add_sub_assoc,
      neg_add_cancel, zero_sub] at this
  exact ⟨moved value.scale, moved value.store.scale⟩

theorem abs_mul_zpow_lt {coefficient : ℤ} (few : |coefficient| < 10 ^ digits)
    (exponent : ℤ) :
    |(coefficient * 10 ^ exponent : ℚ)| < 10 ^ ((digits : ℤ) + exponent) := by
  rw [abs_mul, abs_of_pos (Decimal.ten_zpow_pos _), zpow_add₀ (by norm_num),
    zpow_natCast]
  refine mul_lt_mul_of_pos_right ?_ (Decimal.ten_zpow_pos _)
  exact_mod_cast few

/-- What fits is a multiple of the last unit of every number that is not
further from zero. -/
theorem FitsDigits.exists_eq_mul_lastUnit (fits : FitsDigits digits y)
    (nonzero : y ≠ 0) (atMost : Int.log 10 |x| ≤ Int.log 10 |y|) :
    ∃ count : ℤ, y = count * lastUnit digits x := by
  obtain ⟨coefficient, exponent, few, rfl⟩ := fits
  have logBelow : Int.log 10 |(coefficient * 10 ^ exponent : ℚ)| <
      digits + exponent :=
    (Int.lt_zpow_iff_log_lt (by norm_num) (abs_pos.mpr nonzero)).mp
      (abs_mul_zpow_lt few exponent)
  obtain ⟨places, isPlaces⟩ := Int.eq_ofNat_of_zero_le
    (by omega : 0 ≤ exponent - (Int.log 10 |x| + 1 - digits))
  refine ⟨coefficient * 10 ^ places, ?_⟩
  rw [lastUnit]
  push_cast
  rw [mul_assoc, ← zpow_natCast, ← zpow_add₀ (by norm_num)]
  congr 2
  omega

end FitsDigits

section Leading

variable {digits : ℕ} {x : ℚ}

theorem zpow_log_le_abs (nonzero : x ≠ 0) : 10 ^ Int.log 10 |x| ≤ |x| := by
  have := Int.zpow_log_le_self (b := 10) (by norm_num) (abs_pos.mpr nonzero)
  exact_mod_cast this

theorem abs_lt_zpow_log (x : ℚ) : |x| < 10 ^ (Int.log 10 |x| + 1) := by
  exact_mod_cast Int.lt_zpow_succ_log_self (b := 10) (by norm_num) |x|

theorem log_abs_zpow (exponent : ℤ) : Int.log 10 |(10 : ℚ) ^ exponent| = exponent := by
  rw [abs_of_pos (Decimal.ten_zpow_pos _)]
  exact Int.log_zpow (b := 10) (by norm_num) _

/-- The power of ten at the leading digit is a multiple of the last unit. -/
theorem exists_zpow_log_eq_mul_lastUnit (limited : digits ≠ 0) (x : ℚ) :
    ∃ count : ℤ, (10 : ℚ) ^ Int.log 10 |x| = count * lastUnit digits x :=
  (fitsDigits_ten_zpow _).of_single limited
    |>.exists_eq_mul_lastUnit (Decimal.ten_zpow_pos _).ne' (log_abs_zpow _).ge

end Leading

theorem lastUnit_pos (digits : ℕ) (x : ℚ) : 0 < lastUnit digits x :=
  Decimal.ten_zpow_pos _

theorem lastUnit_neg (digits : ℕ) (x : ℚ) :
    lastUnit digits (-x) = lastUnit digits x := by
  rw [lastUnit, lastUnit, abs_neg]

namespace RoundingMode

theorem floor_le_toInt (mode : RoundingMode) (x : ℚ) : ⌊x⌋ ≤ mode.toInt x := by
  have above : ⌊x⌋ ≤ ⌊x + 1 / 2⌋ := Int.floor_mono (by linarith)
  have below : ⌊x⌋ ≤ ⌈x - 1 / 2⌉ := by
    have less : (⌊x⌋ : ℚ) - 1 < ⌈x - 1 / 2⌉ := by
      have := Int.floor_le x
      have := Int.le_ceil (x - 1 / 2)
      linarith
    have : ⌊x⌋ - 1 < ⌈x - 1 / 2⌉ := by exact_mod_cast less
    omega
  have toCeil : ⌊x⌋ ≤ ⌈x⌉ := Int.floor_le_ceil x
  cases mode with
  | ceiling => exact toCeil
  | floor => exact le_rfl
  | _ =>
      simp only [toInt, truncated]
      split_ifs
      all_goals first | exact le_rfl | assumption

end RoundingMode

/-! ### Rounding -/

section Rounding

variable {digits : ℕ} {mode : RoundingMode} {x y : ℚ}

theorem roundSignificant_neg (digits : ℕ) (mode : RoundingMode) (x : ℚ) :
    roundSignificant digits mode (-x) =
      -roundSignificant digits mode.mirrored x := by
  simp only [roundSignificant, neg_eq_zero, lastUnit_neg, neg_div,
    RoundingMode.toInt_neg]
  split_ifs
  · rfl
  · push_cast
    ring

/-- What fits is not rounded. -/
theorem roundSignificant_of_fits (fits : digits ≠ 0 → FitsDigits digits x) :
    roundSignificant digits mode x = x := by
  unfold roundSignificant
  split_ifs with unrounded
  · rfl
  · obtain ⟨limited, nonzero⟩ := not_or.mp unrounded
    obtain ⟨count, isCount⟩ :=
      (fits limited).exists_eq_mul_lastUnit nonzero le_rfl
    have units : x / lastUnit digits x = count :=
      (div_eq_iff (lastUnit_pos digits x).ne').mpr isCount
    rw [units, RoundingMode.toInt_intCast, ← isCount]

/-- Rounding does not go below a number in the same units. -/
theorem mul_lastUnit_le_roundSignificant (limited : digits ≠ 0) (nonzero : x ≠ 0)
    {count : ℤ} (atMost : count * lastUnit digits x ≤ x) :
    count * lastUnit digits x ≤ roundSignificant digits mode x := by
  have unitPos := lastUnit_pos digits x
  have units : count ≤ ⌊x / lastUnit digits x⌋ :=
    Int.le_floor.mpr ((le_div_iff₀ unitPos).mpr atMost)
  have rounded := units.trans (mode.floor_le_toInt (x / lastUnit digits x))
  rw [roundSignificant, if_neg (by simp [limited, nonzero])]
  refine mul_le_mul_of_nonneg_right ?_ unitPos.le
  exact_mod_cast rounded

/-- Rounding does not go below the power of ten at the leading digit. -/
theorem leading_le_roundSignificant (limited : digits ≠ 0) (positive : 0 < x) :
    10 ^ Int.log 10 |x| ≤ roundSignificant digits mode x := by
  have leadingAtMost : 10 ^ Int.log 10 |x| ≤ x :=
    (zpow_log_le_abs positive.ne').trans_eq (abs_of_pos positive)
  obtain ⟨count, isCount⟩ := exists_zpow_log_eq_mul_lastUnit limited x
  rw [isCount] at leadingAtMost ⊢
  exact mul_lastUnit_le_roundSignificant limited positive.ne' leadingAtMost

/-- Rounding does not go below a number that fits. -/
theorem le_roundSignificant (fits : digits ≠ 0 → FitsDigits digits y)
    (atMost : y ≤ x) :
    y ≤ roundSignificant digits mode x := by
  by_cases unrounded : digits = 0 ∨ x = 0
  · rwa [roundSignificant, if_pos unrounded]
  obtain ⟨limited, nonzero⟩ := not_or.mp unrounded
  by_cases sameUnits : y ≠ 0 ∧ Int.log 10 |x| ≤ Int.log 10 |y|
  · obtain ⟨count, rfl⟩ :=
      (fits limited).exists_eq_mul_lastUnit sameUnits.1 sameUnits.2
    exact mul_lastUnit_le_roundSignificant limited nonzero atMost
  -- Otherwise `y` is shorter than the positive number `x`, and the power of ten
  -- at the leading digit of `x` lies between them.
  have positive : 0 < x := by
    refine lt_of_le_of_ne (not_lt.mp fun negative => sameUnits ?_)
      (Ne.symm nonzero)
    have further : |x| ≤ |y| := by
      rw [abs_of_neg negative, abs_of_neg (atMost.trans_lt negative)]
      linarith
    exact ⟨(atMost.trans_lt negative).ne,
      Int.log_mono_right (abs_pos.mpr nonzero) further⟩
  have yAtMost : y ≤ 10 ^ Int.log 10 |x| := by
    by_cases isZero : y = 0
    · rw [isZero]
      exact (Decimal.ten_zpow_pos _).le
    have shorter : Int.log 10 |y| < Int.log 10 |x| :=
      not_le.mp fun longer => sameUnits ⟨isZero, longer⟩
    have := Int.lt_zpow_iff_log_lt (b := 10) (by norm_num) (abs_pos.mpr isZero)
      |>.mpr shorter
    exact (le_abs_self y).trans (by exact_mod_cast this.le)
  exact yAtMost.trans (leading_le_roundSignificant limited positive)

/-- Rounding does not go above a number that fits. -/
theorem roundSignificant_le (fits : digits ≠ 0 → FitsDigits digits y)
    (atLeast : x ≤ y) : roundSignificant digits mode x ≤ y := by
  have mirrored : -y ≤ roundSignificant digits mode.mirrored (-x) :=
    le_roundSignificant (fun limited => (fits limited).neg) (neg_le_neg atLeast)
  have twice : mode.mirrored.mirrored = mode := by cases mode <;> rfl
  rw [roundSignificant_neg, twice] at mirrored
  linarith

theorem le_abs_roundSignificant (fits : digits ≠ 0 → FitsDigits digits y)
    (atMost : y ≤ |x|) : y ≤ |roundSignificant digits mode x| := by
  rcases le_total 0 x with nonneg | nonpos
  · rw [abs_of_nonneg nonneg] at atMost
    exact (le_roundSignificant fits atMost).trans (le_abs_self _)
  · rw [abs_of_nonpos nonpos] at atMost
    have rounded : roundSignificant digits mode x ≤ -y :=
      roundSignificant_le (fun limited => (fits limited).neg) (by linarith)
    exact (by linarith : y ≤ -roundSignificant digits mode x).trans
      (neg_le_abs _)

theorem abs_roundSignificant_le (fits : digits ≠ 0 → FitsDigits digits y)
    (atLeast : |x| ≤ y) : |roundSignificant digits mode x| ≤ y := by
  obtain ⟨lower, upper⟩ := abs_le.mp atLeast
  exact abs_le.mpr
    ⟨le_roundSignificant (fun limited => (fits limited).neg) lower,
      roundSignificant_le fits upper⟩

/-- Rounding takes only zero to zero. -/
theorem roundSignificant_ne_zero (nonzero : x ≠ 0) :
    roundSignificant digits mode x ≠ 0 := by
  have rounded : (10 : ℚ) ^ Int.log 10 |x| ≤ |roundSignificant digits mode x| :=
    le_abs_roundSignificant (fitsDigits_ten_zpow _).of_single (zpow_log_le_abs nonzero)
  exact abs_pos.mp ((Decimal.ten_zpow_pos _).trans_le rounded)

end Rounding

/-! ### Powers -/

namespace Decimal

theorem not_ten_dvd_div_trailingZeros {value : ℕ} (nonzero : value ≠ 0) :
    ¬ 10 ∣ value / 10 ^ trailingZeros value := by
  fun_induction trailingZeros value with
  | case1 => exact absurd rfl nonzero
  | case2 value _ endsInZero ih =>
      have shorter : value / 10 ≠ 0 := by omega
      rw [pow_succ', ← Nat.div_div_eq_div_mul]
      exact ih shorter
  | case3 value _ endsInDigit =>
      rw [pow_zero, Nat.div_one]
      omega

/-- What is left of a decimal without its trailing zeros does not end in zero. -/
theorem not_ten_dvd_strippedExact {value : Decimal}
    (nonzero : value.coefficient ≠ 0) :
    ¬ 10 ∣ value.strippedExact.coefficient := by
  have magnitude : value.strippedExact.coefficient.natAbs =
      value.coefficient.natAbs /
        10 ^ trailingZeros value.coefficient.natAbs := by
    rw [strippedExact, if_neg (by simp [isZero, nonzero]),
      Int.natAbs_ediv_of_dvd value.ten_pow_trailingZeros_dvd_coefficient,
      Int.natAbs_pow]
    rfl
  intro divides
  apply not_ten_dvd_div_trailingZeros (Int.natAbs_ne_zero.mpr nonzero)
  rw [← magnitude]
  exact Int.natAbs_dvd_natAbs.mpr divides

end Decimal

section Powers

variable {digits exponent power : ℕ} {x : ℚ} {coefficient : ℤ}

/-- A power of an integer ends in zero only if the integer does. -/
theorem not_ten_dvd_pow (notDvd : ¬ 10 ∣ coefficient) (power : ℕ) :
    ¬ 10 ∣ coefficient ^ power := by
  intro divides
  have byPrime {prime : ℕ} (isPrime : prime.Prime) (factor : (prime : ℤ) ∣ 10) :
      (prime : ℤ) ∣ coefficient :=
    (Nat.prime_iff_prime_int.mp isPrime).dvd_of_dvd_pow (factor.trans divides)
  have even : (2 : ℤ) ∣ coefficient := byPrime Nat.prime_two (by norm_num)
  have byFive : (5 : ℤ) ∣ coefficient := byPrime Nat.prime_five (by norm_num)
  omega

/-- An integer that does not end in zero has no shorter writing. -/
theorem abs_lt_of_fits {exponent : ℤ} (notDvd : ¬ 10 ∣ coefficient)
    (fits : FitsDigits digits (coefficient * 10 ^ exponent)) :
    |coefficient| < 10 ^ digits := by
  obtain ⟨other, otherExponent, few, same⟩ := fits
  rcases le_or_gt otherExponent exponent with moreZeros | fewerZeros
  · obtain ⟨zeros, rfl⟩ := Int.le.dest moreZeros
    have isOther : other = coefficient * 10 ^ zeros := by
      rw [zpow_add₀ (by norm_num), zpow_natCast, mul_left_comm, mul_comm] at same
      have := mul_right_cancel₀ (Decimal.ten_zpow_pos otherExponent).ne' same
      exact_mod_cast this.symm
    calc |coefficient| ≤ |coefficient| * 10 ^ zeros :=
          le_mul_of_one_le_right (abs_nonneg _) (one_le_pow₀ (by norm_num))
      _ = |other| := by rw [isOther, abs_mul, abs_pow]; norm_num
      _ < 10 ^ digits := few
  · obtain ⟨zeros, rfl⟩ := Int.lt.dest fewerZeros
    have endsInZero : coefficient = other * 10 ^ (zeros + 1) := by
      rw [zpow_add₀ (by norm_num), zpow_natCast, mul_left_comm, mul_comm] at same
      have := mul_left_cancel₀ (Decimal.ten_zpow_pos exponent).ne' same
      exact_mod_cast this
    refine absurd ?_ notDvd
    rw [endsInZero, pow_succ, ← mul_assoc]
    exact Dvd.intro_left _ rfl

/-- A lower power of a decimal needs no more digits than a higher one. -/
theorem FitsDigits.pow_of_le {value : Decimal} (limited : digits ≠ 0)
    (fits : FitsDigits digits (value.toRat ^ power)) (atMost : exponent ≤ power) :
    FitsDigits digits (value.toRat ^ exponent) := by
  by_cases isZero : value.coefficient = 0
  · have single : FitsDigits 1 ((0 : ℚ) ^ exponent) := by
      rcases exponent.eq_zero_or_pos with rfl | positive
      · exact ⟨1, 0, by norm_num, by norm_num⟩
      · exact ⟨0, 0, by norm_num, by simp [positive.ne']⟩
    rw [Decimal.toRat_eq_zero.mpr isZero]
    exact single.of_single limited
  have notDvd := Decimal.not_ten_dvd_strippedExact isZero
  rw [← value.toRat_strippedExact] at fits ⊢
  set rest := value.strippedExact.coefficient
  have isPower (count : ℕ) : value.strippedExact.toRat ^ count =
      ((rest ^ count : ℤ) : ℚ) * 10 ^ (-value.strippedExact.scale * count) := by
    rw [ExactDecimal.toRat, mul_pow, zpow_mul, zpow_natCast]
    push_cast
    rfl
  have nonzero : rest ≠ 0 := by
    intro restZero
    exact notDvd (restZero ▸ dvd_zero 10)
  rw [isPower] at fits ⊢
  have few := abs_lt_of_fits (not_ten_dvd_pow notDvd power) fits
  refine ⟨rest ^ exponent, _, ?_, rfl⟩
  calc |rest ^ exponent| = |rest| ^ exponent := abs_pow _ _
    _ ≤ |rest| ^ power := pow_le_pow_right₀ (Int.one_le_abs nonzero) atMost
    _ = |rest ^ power| := (abs_pow _ _).symm
    _ < 10 ^ digits := few

end Powers
end FormulaEngine
