import FormulaEngine.Proofs.Decimal.RoundingError
import FormulaEngine.Proofs.Number.Power
import Mathlib.Algebra.Order.Ring.Pow

/-!
# Errors of powers

A decimal power is rounded to the context at the end, from a value that carries
four guard digits and as many relative errors as the exponent says.  Where these
errors stay below half a unit, a nearest mode ends less than one unit away from
the exact power; so does every mode for squares.  The guard digits do not grow
with the exponent, and a directed mode may end further away already for cubes.

All of this is about powers on the way to which the scales fit their word.
-/

namespace FormulaEngine

/-- The errors of few enough factors do not double. -/
theorem one_add_pow_mul_le {error : ℚ} (nonneg : 0 ≤ error) (atMost : error ≤ 1)
    (count : ℕ) : (1 + error) ^ count * (1 - count * error) ≤ 1 := by
  have bernoulli : 1 - count * error ≤ (1 - error) ^ count := by
    have := one_add_mul_le_pow (by linarith : -2 ≤ -error) count
    rwa [mul_neg, ← sub_eq_add_neg, ← sub_eq_add_neg] at this
  calc (1 + error) ^ count * (1 - count * error)
      ≤ (1 + error) ^ count * (1 - error) ^ count :=
        mul_le_mul_of_nonneg_left bernoulli (by positivity)
    _ = (1 - error * error) ^ count := by
        rw [← mul_pow]
        congr 1
        ring
    _ ≤ 1 := pow_le_one₀ (by nlinarith) (by nlinarith)

namespace MathContext

variable {context : MathContext}

/-- The relative error of one product on the way to a power. -/
def productError (context : MathContext) : ℚ :=
  context.rounding.spread * 10 ^ (-(context.precision.toNat + 3 : ℤ))

theorem productError_nonneg (context : MathContext) : 0 ≤ context.productError :=
  mul_nonneg context.rounding.spread_nonneg (Decimal.ten_zpow_pos _).le

theorem ProductFits.within {left right : Decimal}
    (fits : context.ProductFits left right) (limited : context.isUnlimited = false)
    (room : context.precision.toNat + 4 < 2 ^ 64) :
    Within (1 + context.productError) (left.toRat * right.toRat)
      (context.roundProduct (left.multiply right)).toRat := by
  have digits := productDigits_of_limited limited room
  have rounded : context.productDigits ≠ 0 := by omega
  have within := within_roundSignificant rounded context.rounding
    (left.toRat * right.toRat)
  have exponent : (1 - context.productDigits : ℤ) =
      -(context.precision.toNat + 3 : ℤ) := by
    omega
  rwa [exponent, ← fits.toRat_roundProduct] at within

end MathContext

namespace Decimal

variable {context : MathContext}

/-- The power that squaring ends with carries one relative error for each factor.
A square carries one less, since squaring starts from the base itself. -/
theorem ProductsFit.within_naturalPower {base : Decimal} {count : ℕ}
    (scales : base.ProductsFit count context)
    (limited : context.isUnlimited = false)
    (room : context.precision.toNat + 4 < 2 ^ 64) :
    Within ((1 + context.productError) ^ count) (base.toRat ^ count)
      (base.naturalPower count context).toRat := by
  set factor := 1 + context.productError with isFactor
  have atLeast : 1 ≤ factor := le_add_of_nonneg_right context.productError_nonneg
  have atLeastPow (power : ℕ) : 1 ≤ factor ^ power := one_le_pow₀ atLeast
  have rounded {left right : Decimal} {enlarged x : ℚ}
      (stored : context.ProductFits left right)
      (within : Within enlarged x (left.toRat * right.toRat)) :
      Within (enlarged * factor) x
        (context.roundProduct (left.multiply right)).toRat :=
    within.trans (stored.within limited room) atLeast
  let Holds (power : ℕ) (value : Decimal) : Prop :=
    Within (factor ^ power) (base.toRat ^ power) value.toRat
  let Squares (power : ℕ) (value : Decimal) : Prop := ∃ lower,
    power = lower + 1 ∧ Within (factor ^ lower) (base.toRat ^ power) value.toRat
  have oneHolds : Holds 0 one := by
    unfold Holds
    rw [pow_zero, pow_zero, toRat_one]
    exact within_self 1
  have baseHolds : Squares 1 base := by
    refine ⟨0, rfl, ?_⟩
    rw [pow_zero, pow_one]
    exact within_self _
  rw [naturalPower_eq]
  refine squaring_induction Holds Squares context.ProductFits ?_ ?_ oneHolds
    baseHolds (by omega) scales
  · rintro i - left right - stored isLeft ⟨lower, rfl, isRight⟩
    unfold Holds
    rw [pow_add base.toRat, ← add_assoc, pow_succ factor, pow_add factor]
    exact rounded stored (isLeft.mul isRight (atLeastPow lower))
  · rintro - value - stored ⟨lower, rfl, isSquare⟩
    refine ⟨lower + lower + 1, by omega, ?_⟩
    rw [pow_add base.toRat, pow_succ factor, pow_add factor]
    exact rounded stored (isSquare.mul isSquare (atLeastPow lower))

/-- Squares and lower powers are only rounded, so they pass no number of fewer
digits. -/
theorem ProductsFit.passesNone_naturalPower {base : Decimal} {digits count : ℕ}
    (scales : base.ProductsFit count context) (few : digits ≤ context.productDigits)
    (low : count ≤ 2) :
    PassesNone digits (base.toRat ^ count)
      (base.naturalPower count context).toRat := by
  have self := passesNone_self digits (base.toRat ^ count)
  rw [naturalPower_eq]
  obtain rfl | rfl | rfl : count = 0 ∨ count = 1 ∨ count = 2 := by omega
  · simpa [squaring, toRat_one] using self
  · have stored : context.ProductFits one base :=
      scales (one, base) (by simp [factors])
    have rounded := self.round few context.rounding
    simpa [squaring, stored.toRat_roundProduct, toRat_one] using rounded
  · have square : context.ProductFits base base :=
      scales (base, base) (by simp [factors])
    have stored : context.ProductFits one
        (context.roundProduct (base.multiply base)) :=
      scales (one, context.roundProduct (base.multiply base)) (by simp [factors])
    have rounded := (self.round few context.rounding).round few context.rounding
    simpa [squaring, stored.toRat_roundProduct, square.toRat_roundProduct, toRat_one,
      pow_two] using rounded

end Decimal

/-- Where the guard digits outweigh the errors, these stay below half a unit. -/
theorem MathContext.productError_small {context : MathContext} {count : ℕ}
    (limited : context.precision.toNat ≠ 0) (nearest : context.rounding.isNearest)
    (few : count ≤ 950) :
    ((1 + context.productError) ^ count - 1) * 10 ^ context.precision.toNat <
      1 / 2 := by
  set error := context.productError with isError
  set unit : ℚ := 10 ^ context.precision.toNat with isUnit
  have share : error * unit = 1 / 2000 := by
    rw [isError, productError, RoundingMode.spread, if_pos nearest, isUnit,
      ← zpow_natCast, mul_assoc, ← zpow_add₀ (by norm_num)]
    norm_num
  have atLeastTen : 10 ≤ unit := le_self_pow₀ (by norm_num) limited
  have nonneg : 0 ≤ error := context.productError_nonneg
  have countAtMost : (count : ℚ) ≤ 950 := by exact_mod_cast few
  have errorAtMost : error ≤ 1 / 20000 := by nlinarith
  have sumAtMost : count * error ≤ 950 / 20000 := by nlinarith
  have enlarged := one_add_pow_mul_le nonneg (by linarith) count
  have positive : 0 < (1 + error) ^ count := by positivity
  set power := (1 + error) ^ count
  have powerAtMost : power * (1 - 950 / 20000) ≤ 1 := by nlinarith
  have sharesAtMost : count * (error * unit) ≤ 950 / 2000 := by
    rw [share]
    linarith
  calc (power - 1) * unit ≤ power * (count * error) * unit :=
        mul_le_mul_of_nonneg_right (by linarith) (by linarith)
    _ = power * (count * (error * unit)) := by ring
    _ ≤ power * (950 / 2000) := mul_le_mul_of_nonneg_left sharesAtMost positive.le
    _ < 1 / 2 := by linarith

namespace Decimal

/-- A decimal raised to a natural number is rounded from a value that carries four
guard digits and one relative error for each factor, as long as the scales on the
way fit. -/
theorem power_accuracy {base exponent : Decimal} {count : ℕ} {context : MathContext}
    (isCount : exponent.toRat = count) (scales : base.PowerFits count context)
    (limited : context.isUnlimited = false)
    (room : context.precision.toNat + 4 < 2 ^ 64) :
    ∃ carried power : Decimal,
      ArithmeticOp.power.reduce (.bigDecimal base) (.bigDecimal exponent)
        context = .ok (.bigDecimal power) ∧
      power.toRat = context.roundRat carried.toRat ∧
      |carried.toRat - base.toRat ^ count| ≤
        ((1 + context.productError) ^ count - 1) * |base.toRat ^ count| ∧
      |power.toRat - base.toRat ^ count| <
        lastUnit context.precision.toNat carried.toRat +
          ((1 + context.productError) ^ count - 1) * |base.toRat ^ count| ∧
      (count ≤ 2 ∨ context.rounding.isNearest ∧ count ≤ 950 →
        |power.toRat - base.toRat ^ count| <
          lastUnit context.precision.toNat (base.toRat ^ count)) := by
  have digitsNonzero := MathContext.precision_ne_zero limited
  have isPower : base.power exponent context =
      .ok (context.round (base.naturalPower count context)) := by
    rw [power_of_intCast (by exact_mod_cast isCount),
      if_neg (Int.natCast_nonneg count).not_gt, Int.natAbs_natCast]
  have within := scales.products.within_naturalPower limited room
  have isRounded := MathContext.toRat_round scales.result
  have passesNone {digits : ℕ} (few : digits ≤ context.productDigits)
      (low : count ≤ 2) := scales.products.passesNone_naturalPower few low
  set carried := base.naturalPower count context
  refine ⟨carried, context.round carried, ?_, isRounded, within, ?_, ?_⟩
  · change (base.power exponent context).map Operand.bigDecimal = _
    rw [isPower]
    rfl
  · rw [isRounded]
    have rounded : |context.roundRat carried.toRat - carried.toRat| <
        lastUnit context.precision.toNat carried.toRat :=
      abs_roundSignificant_sub_lt digitsNonzero
    exact (abs_sub_le _ carried.toRat _).trans_lt (add_lt_add_of_lt_of_le rounded within)
  · rw [isRounded]
    rintro (low | ⟨nearest, few⟩)
    · have digits := MathContext.productDigits_of_limited limited room
      have fewer : context.precision.toNat ≤ context.productDigits := by omega
      exact ((passesNone fewer low).round le_rfl _).abs_sub_lt digitsNonzero
    · have unitPos := lastUnit_pos context.precision.toNat (base.toRat ^ count)
      have short := abs_lt_mul_lastUnit context.precision.toNat (base.toRat ^ count)
      have small := MathContext.productError_small digitsNonzero nearest few
      have enlarges : 0 ≤ (1 + context.productError) ^ count - 1 :=
        sub_nonneg.mpr (one_le_pow₀
          (le_add_of_nonneg_right context.productError_nonneg))
      refine abs_roundSignificant_sub_lt_of_near digitsNonzero nearest ?_
      set unit := lastUnit context.precision.toNat (base.toRat ^ count)
      calc |carried.toRat - base.toRat ^ count|
          ≤ ((1 + context.productError) ^ count - 1) * |base.toRat ^ count| := within
        _ ≤ ((1 + context.productError) ^ count - 1) *
              (10 ^ context.precision.toNat * unit) :=
            mul_le_mul_of_nonneg_left short.le enlarges
        _ = ((1 + context.productError) ^ count - 1) *
              10 ^ context.precision.toNat * unit := (mul_assoc _ _ _).symm
        _ < 1 / 2 * unit := mul_lt_mul_of_pos_right small unitPos

/-- `1.1` to the power of nine hundred, in sixteen digits. -/
theorem power_accuracy_tenths :
    let base : Decimal := ⟨11, 1⟩
    let exponent : Decimal := ⟨9, -2⟩
    let context := MathContext.decimal64
    exponent.toRat = (900 : ℕ) ∧ base.PowerFits 900 context ∧
      context.isUnlimited = false ∧ context.precision.toNat + 4 < 2 ^ 64 ∧
      ∃ power : Decimal,
        ArithmeticOp.power.reduce (.bigDecimal base) (.bigDecimal exponent)
          context = .ok (.bigDecimal power) ∧
        |power.toRat - base.toRat ^ 900| <
          lastUnit context.precision.toNat (base.toRat ^ 900) := by
  intro base exponent context
  have isCount : exponent.toRat = (900 : ℕ) := by
    simp [exponent, toRat, scale]
    norm_num
  have scales : base.PowerFits 900 context := powerFits_of_size (by decide)
  have limited : context.isUnlimited = false := rfl
  have room : context.precision.toNat + 4 < 2 ^ 64 := by decide
  obtain ⟨-, power, reduces, -, -, -, accurate⟩ :=
    power_accuracy isCount scales limited room
  exact ⟨isCount, scales, limited, room, power, reduces,
    accurate (.inr ⟨rfl, by norm_num⟩)⟩

theorem lastUnit_one_of_leading {leading : ℚ} (lower : 1 ≤ leading)
    (upper : leading < 10) (exponent : ℤ) :
    lastUnit 1 (leading * 10 ^ exponent) = 10 ^ exponent := by
  have cancel : leading * 10 ^ exponent * 10 ^ (-exponent) = leading := by
    rw [mul_assoc, ← zpow_add₀ (by norm_num), add_neg_cancel, zpow_zero, mul_one]
  have unit := @lastUnit_of_bounds 1 (-exponent) (leading * 10 ^ exponent) one_pos
    (by rwa [cancel, pow_zero]) (by rwa [cancel, pow_one])
  rwa [neg_neg] at unit

/-- A power that comes out a unit of its last digit or more away from the exact
one. -/
def MissesUnit (base : Decimal) (count : ℕ) (context : MathContext) : Prop :=
  ∃ power : Decimal,
    ArithmeticOp.power.reduce (.bigDecimal base) (.bigDecimal (ofInt count))
      context = .ok (.bigDecimal power) ∧
    lastUnit context.precision.toNat (base.toRat ^ count) ≤
      |power.toRat - base.toRat ^ count|

/-- Errors can make up a unit.  The cube of `1.25992` is `1.999995…`; rounded up to
one digit, after products that were rounded up to five, it comes out as three.
The power of `3.2239` to 1605 is `8.96… · 10 ^ 815`; rounded half even to one
digit, after products of five, it comes out as `10 ^ 816`. -/
theorem missesUnit_cube_and_long :
    MissesUnit ⟨125992, 5⟩ 3 ⟨1, .up⟩ ∧
      MissesUnit ⟨32239, 4⟩ 1605 ⟨1, .halfEven⟩ := by
  constructor
  · have cube : (⟨125992, 5⟩ : Decimal).toRat ^ 3 = 1.999995000191488 := by
      simp [toRat, scale]
      norm_num
    have three : (⟨3, 0⟩ : Decimal).toRat = 3 := by simp [toRat, scale]
    refine ⟨⟨3, 0⟩, by decide +kernel, ?_⟩
    have unit : lastUnit 1 (1.999995000191488 : ℚ) = 1 :=
      @lastUnit_of_bounds 1 0 _ one_pos (by norm_num) (by norm_num)
    rw [three, cube, abs_of_pos (by norm_num)]
    exact unit.trans_le (by norm_num)
  · obtain ⟨leading, isPower, lower, upper⟩ : ∃ leading : ℚ,
        (⟨32239, 4⟩ : Decimal).toRat ^ 1605 = leading * 10 ^ (815 : ℤ) ∧
          1 ≤ leading ∧ leading ≤ 9 := by
      have atLeast : (10 : ℚ) ^ 7235 ≤ 32239 ^ 1605 := by
        exact_mod_cast (by decide +kernel : 10 ^ 7235 ≤ 32239 ^ 1605)
      have atMost : (32239 : ℚ) ^ 1605 ≤ 9 * 10 ^ 7235 := by
        exact_mod_cast (by decide +kernel : 32239 ^ 1605 ≤ 9 * 10 ^ 7235)
      have shiftPos : (0 : ℚ) < 10 ^ 7235 := pow_pos (by norm_num) _
      have shifted : ((10 : ℚ) ^ (-4 : ℤ)) ^ 1605 = 10 ^ (815 : ℤ) / 10 ^ 7235 := by
        rw [← zpow_natCast, ← zpow_natCast, ← zpow_mul, ← zpow_sub₀ (by norm_num)]
        norm_num
      refine ⟨32239 ^ 1605 / 10 ^ 7235, ?_, (one_le_div shiftPos).mpr atLeast,
        (div_le_iff₀ shiftPos).mpr atMost⟩
      have isScale : (⟨32239, 4⟩ : Decimal).scale = 4 := rfl
      rw [toRat, isScale, mul_pow, shifted, Int.cast_ofNat, mul_div_assoc',
        mul_div_right_comm]
    have unitPos := ten_zpow_pos 815
    have unit : lastUnit 1 (leading * 10 ^ (815 : ℤ)) = 10 ^ (815 : ℤ) :=
      lastUnit_one_of_leading lower (by linarith) 815
    have isScale : (⟨10, -815⟩ : Decimal).scale = -815 := rfl
    refine ⟨⟨10, -815⟩, by decide +kernel, ?_⟩
    rw [isPower, toRat, isScale, neg_neg, ← sub_mul, abs_mul, abs_of_pos unitPos,
      Int.cast_ofNat, abs_of_pos (by linarith)]
    refine unit.trans_le (le_mul_of_one_le_left unitPos.le (by linarith))

end Decimal

end FormulaEngine
