import FormulaEngine.Decimal.Division
import FormulaEngine.Proofs.Decimal.Significant

/-!
# Quotients

A quotient under way and what remains of the dividend always make up the
dividend, moved by the digits developed so far.  When the development stops, the
quotient is exact or has at least one hundred digits, and finishing rounds it
half up.  So a decimal quotient is the exact quotient, rounded half up to one
hundred significant digits or more, if its scale fits its word.
-/

namespace FormulaEngine

namespace Decimal

theorem digitCount_append {value digit : ℕ} (positive : 0 < value)
    (isDigit : digit < 10) :
    Text.digitCount (value * 10 + digit) = Text.digitCount value + 1 := by
  have front : (value * 10 + digit) / 10 = value := by omega
  rw [Text.digitCount, Nat.toDigits_of_base_le (by norm_num) (by omega), front,
    List.length_append, List.length_singleton, Text.digitCount]

/-- The unit of the last digit, where so many digits stand in front of it. -/
theorem lastUnit_of_bounds {digits : ℕ} {scale : ℤ} {x : ℚ} (limited : 0 < digits)
    (lower : 10 ^ (digits - 1) ≤ x * 10 ^ scale)
    (upper : x * 10 ^ scale < 10 ^ digits) :
    lastUnit digits x = 10 ^ (-scale) := by
  have scalePos := ten_zpow_pos scale
  have atLeast : (10 : ℚ) ^ (digits - 1 - scale : ℤ) ≤ x := by
    rw [zpow_sub₀ (by norm_num), div_le_iff₀ scalePos]
    calc (10 : ℚ) ^ (digits - 1 : ℤ) = 10 ^ (digits - 1) := by
          rw [← zpow_natCast]
          congr 1
          omega
      _ ≤ x * 10 ^ scale := lower
  have below : x < (10 : ℚ) ^ (digits - scale : ℤ) := by
    rwa [zpow_sub₀ (by norm_num), zpow_natCast, lt_div_iff₀ scalePos]
  have positive : 0 < x := (ten_zpow_pos _).trans_le atLeast
  have logAtLeast : (digits - 1 - scale : ℤ) ≤ Int.log 10 x :=
    (Int.zpow_le_iff_le_log (by norm_num) positive).mp (by exact_mod_cast atLeast)
  have logBelow : Int.log 10 x < digits - scale :=
    (Int.lt_zpow_iff_log_lt (by norm_num) positive).mp (by exact_mod_cast below)
  rw [lastUnit, abs_of_pos positive]
  congr 1
  omega

namespace LongDivision

/-- A division under way that has moved the dividend by some places, far enough
for a first digit. -/
structure Develops (dividend divisor : ℕ) (scale : ℤ) (division : LongDivision)
    (places : ℕ) : Prop where
  whole : division.quotient * divisor + division.rest = dividend * 10 ^ places
  rest_lt : division.rest < divisor
  scale_eq : division.scale = scale + places
  positive : 0 < division.quotient

variable {dividend divisor places : ℕ} {scale : ℤ} {division : LongDivision}

theorem Develops.next (develops : Develops dividend divisor scale division places) :
    Develops dividend divisor scale
      { quotient := division.quotient * 10 + division.rest * 10 / divisor
        rest := division.rest * 10 % divisor
        scale := division.scale + 1 } (places + 1) where
  whole := by
    have split := Nat.div_add_mod' (division.rest * 10) divisor
    calc (division.quotient * 10 + division.rest * 10 / divisor) * divisor +
          division.rest * 10 % divisor
        = division.quotient * divisor * 10 +
            (division.rest * 10 / divisor * divisor +
              division.rest * 10 % divisor) := by ring
      _ = (division.quotient * divisor + division.rest) * 10 := by
          rw [split]
          ring
      _ = dividend * 10 ^ (places + 1) := by
          rw [develops.whole]
          ring
  rest_lt := Nat.mod_lt _ (Nat.zero_lt_of_lt develops.rest_lt)
  scale_eq := by
    have := develops.scale_eq
    push_cast
    omega
  positive := Nat.add_pos_left (Nat.mul_pos develops.positive (by norm_num)) _

/-- A development ends with nothing left or with all the digits it may have. -/
theorem Develops.develop (digits : ℕ)
    (develops : Develops dividend divisor scale division places) :
    ∃ more,
      let developed := LongDivision.develop divisor digits division
      Develops dividend divisor scale developed (places + more) ∧
        (developed.rest = 0 ∨ Text.digitCount developed.quotient =
          Text.digitCount division.quotient + digits) := by
  induction digits generalizing division places with
  | zero => exact ⟨0, develops, .inr rfl⟩
  | succ digits ih =>
      rw [LongDivision.develop]
      split
      next isExact => exact ⟨0, develops, .inl isExact⟩
      next =>
        have isDigit : division.rest * 10 / divisor < 10 := by
          have := develops.rest_lt
          exact Nat.div_lt_of_lt_mul (by omega)
        obtain ⟨more, developed, ends⟩ := ih develops.next
        rw [digitCount_append develops.positive isDigit] at ends
        rw [Nat.add_assoc] at developed
        exact ⟨1 + more, developed, by omega⟩

/-- Finishing rounds half up. -/
theorem Develops.finish_eq
    (develops : Develops dividend divisor scale division places) :
    finish divisor division =
      (RoundingMode.halfUp.quotient false (dividend * 10 ^ places) divisor,
        division.scale) := by
  have divisorPos : 0 < divisor := Nat.zero_lt_of_lt develops.rest_lt
  obtain ⟨kept, rest⟩ := (Nat.div_mod_unique divisorPos).mpr
    ⟨(Nat.add_comm _ _).trans ((congrArg (· + _) (Nat.mul_comm _ _)).trans
      develops.whole), develops.rest_lt⟩
  have half : 5 ≤ division.rest * 10 / divisor ↔ divisor ≤ 2 * division.rest := by
    rw [Nat.le_div_iff_mul_le divisorPos]
    omega
  rw [finish, RoundingMode.quotient, kept, rest]
  simp only [RoundingMode.goesUp, half, decide_eq_true_eq]
  split_ifs <;> first | rfl | omega

section Value

variable {digits : ℕ}

/-- The exact quotient, in units of the last digit developed. -/
theorem Develops.units
    (develops : Develops dividend divisor scale division places) :
    (dividend : ℚ) / divisor * 10 ^ (-scale) * 10 ^ division.scale =
      ((dividend * 10 ^ places : ℕ) : ℚ) / divisor := by
  rw [mul_assoc, ← zpow_add₀ (by norm_num), develops.scale_eq,
    neg_add_cancel_left, zpow_natCast]
  push_cast
  ring

theorem Develops.finish_value
    (develops : Develops dividend divisor scale division places) :
    ((finish divisor division).1 : ℚ) * 10 ^ (-(finish divisor division).2) =
      RoundingMode.halfUp.toInt (((dividend * 10 ^ places : ℕ) : ℚ) / divisor) *
        10 ^ (-division.scale) := by
  rw [develops.finish_eq, ← RoundingMode.quotient_eq_toInt _ _
    (Nat.zero_lt_of_lt develops.rest_lt)]
  rfl

/-- A quotient that leaves nothing is not rounded. -/
theorem Develops.finish_of_exact
    (develops : Develops dividend divisor scale division places)
    (isExact : division.rest = 0)
    (few : Text.digitCount division.quotient ≤ digits) :
    ((finish divisor division).1 : ℚ) * 10 ^ (-(finish divisor division).2) =
      roundSignificant digits .halfUp
        ((dividend : ℚ) / divisor * 10 ^ (-scale)) := by
  have divisorPos : (0 : ℚ) < divisor := by
    exact_mod_cast Nat.zero_lt_of_lt develops.rest_lt
  have whole := develops.whole
  rw [isExact, Nat.add_zero] at whole
  have quotient : ((dividend * 10 ^ places : ℕ) : ℚ) / divisor =
      (division.quotient : ℤ) := by
    rw [← whole, div_eq_iff divisorPos.ne']
    push_cast
    rfl
  have value : (dividend : ℚ) / divisor * 10 ^ (-scale) =
      (division.quotient : ℤ) * 10 ^ (-division.scale) := by
    rw [← quotient, ← develops.units, mul_assoc, ← zpow_add₀ (by norm_num),
      add_neg_cancel, zpow_zero, mul_one]
  have fits : FitsDigits digits
      ((division.quotient : ℤ) * 10 ^ (-division.scale)) := by
    refine ⟨division.quotient, _, ?_, rfl⟩
    have : division.quotient < 10 ^ digits :=
      (Text.lt_ten_pow_digitCount _).trans_le
        (Nat.pow_le_pow_right (by norm_num) few)
    rw [abs_of_nonneg (Int.natCast_nonneg _)]
    exact_mod_cast this
  rw [develops.finish_value, quotient, RoundingMode.toInt_intCast, value,
    roundSignificant_of_fits fun _ => fits]

/-- A quotient with all its digits is rounded at the last one. -/
theorem Develops.finish_of_digits
    (develops : Develops dividend divisor scale division places)
    (all : Text.digitCount division.quotient = digits) :
    ((finish divisor division).1 : ℚ) * 10 ^ (-(finish divisor division).2) =
      roundSignificant digits .halfUp
        ((dividend : ℚ) / divisor * 10 ^ (-scale)) := by
  have digitsPos : 0 < digits := all ▸ Text.digitCount_pos _
  have divisorPos : (0 : ℚ) < divisor := by
    exact_mod_cast Nat.zero_lt_of_lt develops.rest_lt
  have lower : (10 : ℚ) ^ (digits - 1) ≤
      (dividend : ℚ) / divisor * 10 ^ (-scale) * 10 ^ division.scale := by
    have leading : 10 ^ ((ofInt division.quotient).digitCount - 1) ≤
        (division.quotient : ℤ).natAbs :=
      ten_pow_pred_digitCount_le (Int.natCast_ne_zero.mpr develops.positive.ne')
    have many : 10 ^ (digits - 1) ≤ division.quotient := by
      rw [← all]
      exact leading
    have : 10 ^ (digits - 1) * divisor ≤
        division.quotient * divisor + division.rest :=
      (Nat.mul_le_mul_right divisor many).trans (Nat.le_add_right _ _)
    rw [develops.units, le_div_iff₀ divisorPos, ← develops.whole]
    exact_mod_cast this
  have upper : (dividend : ℚ) / divisor * 10 ^ (-scale) * 10 ^ division.scale <
      10 ^ digits := by
    have few : division.quotient + 1 ≤ 10 ^ digits :=
      all ▸ Text.lt_ten_pow_digitCount division.quotient
    have : division.quotient * divisor + division.rest < 10 ^ digits * divisor := by
      have restLess := develops.rest_lt
      have := Nat.mul_le_mul_right divisor few
      rw [Nat.add_mul] at this
      omega
    rw [develops.units, div_lt_iff₀ divisorPos, ← develops.whole]
    exact_mod_cast this
  have isUnit := lastUnit_of_bounds digitsPos lower upper
  set x : ℚ := (dividend : ℚ) / divisor * 10 ^ (-scale)
  have nonzero : x ≠ 0 := by
    rintro isZero
    rw [isZero, zero_mul] at lower
    exact absurd lower (not_le.mpr (by positivity))
  rw [develops.finish_value, roundSignificant,
    if_neg (by simp [digitsPos.ne', nonzero]), isUnit, ← develops.units]
  congr 2
  rw [zpow_neg _ division.scale, div_inv_eq_mul]

end Value

end LongDivision

theorem le_leadingPlaces {dividend : ℕ} (positive : 0 < dividend)
    (divisor : ℕ) : divisor ≤ dividend * 10 ^ leadingPlaces dividend divisor := by
  fun_induction leadingPlaces dividend divisor with
  | case1 dividend ends => omega
  | case2 dividend goesOn ih =>
      have := ih (by omega)
      rwa [pow_succ', ← mul_assoc]

/-- A quotient of magnitudes is rounded half up to at least one hundred
digits. -/
theorem divideMagnitudes_eq {dividend divisor : ℕ} (dividendPos : 0 < dividend)
    (divisorPos : 0 < divisor) (scale : ℤ) :
    ∃ digits, quotientDigits ≤ digits ∧
      ((divideMagnitudes dividend divisor scale).1 : ℚ) *
          10 ^ (-(divideMagnitudes dividend divisor scale).2) =
        roundSignificant digits .halfUp
          ((dividend : ℚ) / divisor * 10 ^ (-scale)) := by
  set places := leadingPlaces dividend divisor with isPlaces
  set shifted := dividend * 10 ^ places with isShifted
  have large : divisor ≤ shifted := le_leadingPlaces dividendPos divisor
  have starts : LongDivision.Develops dividend divisor scale
      { quotient := shifted / divisor
        rest := shifted % divisor
        scale := scale + places } places :=
    ⟨Nat.div_add_mod' _ _, Nat.mod_lt _ divisorPos, rfl,
      Nat.div_pos large divisorPos⟩
  obtain ⟨more, developed, ends⟩ :=
    starts.develop (quotientDigits - Text.digitCount (shifted / divisor))
  rcases ends with isExact | all
  · exact ⟨max quotientDigits _, le_max_left _ _,
      developed.finish_of_exact isExact (le_max_right _ _)⟩
  · refine ⟨_, ?_, developed.finish_of_digits rfl⟩
    rw [all]
    exact Nat.sub_le_iff_le_add'.mp le_rfl

theorem fitsDigits_toRat {value : Decimal} {digits : ℕ}
    (few : value.digitCount ≤ digits) : FitsDigits digits value.toRat := by
  refine ⟨value.coefficient, -value.scale, ?_, rfl⟩
  have : value.coefficient.natAbs < 10 ^ digits :=
    (Text.lt_ten_pow_digitCount _).trans_le
      (Nat.pow_le_pow_right (by norm_num) few)
  rw [Int.abs_eq_natAbs]
  exact_mod_cast this

theorem intCast_div_eq_sign (dividend divisor : ℤ) :
    (dividend : ℚ) / divisor =
      ((dividend.sign * divisor.sign : ℤ) : ℚ) *
        ((dividend.natAbs : ℚ) / divisor.natAbs) := by
  have signed (value : ℤ) : (value : ℚ) = value.sign * (value.natAbs : ℚ) := by
    rw [← Int.cast_natCast, ← Int.cast_mul, Int.sign_mul_natAbs]
  have selfInverse : (divisor.sign : ℚ)⁻¹ = divisor.sign := by
    rcases divisor.sign_trichotomy with sign | sign | sign <;> norm_num [sign]
  rw [signed dividend, signed divisor, div_eq_mul_inv, mul_inv, selfInverse]
  push_cast
  ring

theorem toRat_div_toRat (left right : Decimal) :
    left.toRat / right.toRat =
      (left.coefficient : ℚ) / right.coefficient *
        10 ^ (-(left.scale - right.scale)) := by
  have scales : (10 : ℚ) ^ (-left.scale) / 10 ^ (-right.scale) =
      10 ^ (-(left.scale - right.scale)) := by
    rw [← zpow_sub₀ (by norm_num)]
    congr 1
    ring
  rw [toRat, toRat, mul_div_mul_comm, scales]

/-- Rounding half up does not look at the sign. -/
theorem signs_mul_roundSignificant {left right : ℤ} (leftNonzero : left ≠ 0)
    (rightNonzero : right ≠ 0) (digits : ℕ) (x : ℚ) :
    ((left.sign * right.sign : ℤ) : ℚ) * roundSignificant digits .halfUp x =
      roundSignificant digits .halfUp (((left.sign * right.sign : ℤ) : ℚ) * x) := by
  have negated : roundSignificant digits .halfUp (-x) =
      -roundSignificant digits .halfUp x :=
    roundSignificant_neg digits .halfUp x
  have signs : left.sign * right.sign = 1 ∨ left.sign * right.sign = -1 := by
    rcases lt_or_gt_of_ne leftNonzero with leftNeg | leftPos <;>
      rcases lt_or_gt_of_ne rightNonzero with rightNeg | rightPos <;>
        simp [Int.sign_eq_one_of_pos, Int.sign_eq_neg_one_of_neg, *]
  rcases signs with sign | sign <;> simp [sign, negated]

/-- A quotient is rounded half up to at least one hundred digits. -/
theorem toRat_divideExact (left : Decimal) {right : Decimal}
    (nonzero : right.toRat ≠ 0) :
    ∃ digits, quotientDigits ≤ digits ∧ (left.divideExact right).toRat =
      roundSignificant digits .halfUp (left.toRat / right.toRat) := by
  unfold divideExact
  split_ifs with trivial same
  · have isQuotient : left.toRat / right.toRat = left.toRat := by
      rcases Bool.or_eq_true_iff.mp trivial with leftZero | rightUnit
      · rw [isZero_iff.mp leftZero, zero_div]
      · rw [toRat_of_isUnit rightUnit, div_one]
    refine ⟨max quotientDigits left.digitCount, le_max_left _ _, ?_⟩
    rw [isQuotient, toRat_exact,
      roundSignificant_of_fits fun _ => fitsDigits_toRat (le_max_right _ _)]
  · refine ⟨quotientDigits, le_rfl, ?_⟩
    have isPower : left.toRat / right.toRat =
        10 ^ (-(left.scale - right.scale)) := by
      have nonzeroCoefficient : (right.coefficient : ℚ) ≠ 0 :=
        Int.cast_ne_zero.mpr (mt toRat_eq_zero.mpr nonzero)
      rw [toRat_div_toRat, same, div_self nonzeroCoefficient, one_mul]
    rw [isPower, roundSignificant_of_fits fun limited =>
      (fitsDigits_ten_zpow _).of_single limited, ExactDecimal.toRat, Int.cast_one,
      one_mul]
  · have leftNonzero : left.coefficient ≠ 0 := by
      simp [isZero] at trivial
      exact trivial.1
    have rightNonzero : right.coefficient ≠ 0 := mt toRat_eq_zero.mpr nonzero
    obtain ⟨digits, enough, rounded⟩ := divideMagnitudes_eq
      (Int.natAbs_pos.mpr leftNonzero) (Int.natAbs_pos.mpr rightNonzero)
      (left.scale - right.scale)
    refine ⟨digits, enough, ?_⟩
    rw [toRat_div_toRat, intCast_div_eq_sign, mul_assoc,
      ← signs_mul_roundSignificant leftNonzero rightNonzero, ← rounded,
      ExactDecimal.toRat]
    push_cast
    ring

theorem toRat_divide {left right : Decimal} (fits : (left.divideExact right).Fits)
    (nonzero : right.toRat ≠ 0) :
    ∃ digits, quotientDigits ≤ digits ∧ (left.divide right).toRat =
      roundSignificant digits .halfUp (left.toRat / right.toRat) := by
  rw [divide, ExactDecimal.toRat_store fits]
  exact left.toRat_divideExact nonzero

end Decimal

end FormulaEngine
