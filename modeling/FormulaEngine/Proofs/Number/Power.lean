import FormulaEngine.Number.Reduction
import FormulaEngine.Proofs.Number.Scale

/-!
# Powers

Raising by squaring keeps a law between results and exponents if every rounded
product keeps it.  Two laws matter.  Where all lower powers fit the digits that
products keep, every result is an exact power.  Where the base is at least two,
so is every result, however products are rounded.  The first makes a decimal
power exact whenever the power itself fits; the second keeps the reciprocal of a
power of an integer from ever looking integral.

Both laws are about values, so they need scales that fit their word.  A power may
have a scale that does not, and then it comes out as another number.
-/

namespace FormulaEngine

namespace Decimal

section NaturalPower

variable {base : Decimal} {count : ℕ} {context : MathContext}

theorem toRat_one : one.toRat = 1 :=
  (toRat_ofInt 1).trans Int.cast_one

/-- A power is exact where all lower powers fit the digits of products. -/
theorem ProductsFit.toRat_naturalPower (scales : base.ProductsFit count context)
    (fits : ∀ lower ≤ count, context.productDigits ≠ 0 →
      FitsDigits context.productDigits (base.toRat ^ lower)) :
    (base.naturalPower count context).toRat = base.toRat ^ count := by
  apply scales.induction fun power value => value.toRat = base.toRat ^ power
  · rw [toRat_one, pow_zero]
  · rw [pow_one]
  · intro i j left right atMost stored isLeft isRight
    rw [stored.toRat_roundProduct, isLeft, isRight, ← pow_add,
      roundSignificant_of_fits (fits (i + j) atMost)]

/-- However products are rounded, a power of at least two is at least two. -/
theorem ProductsFit.two_le_abs_naturalPower
    (scales : base.ProductsFit count context) (large : 2 ≤ |base.toRat|)
    (positive : 0 < count) :
    2 ≤ |(base.naturalPower count context).toRat| := by
  have oneFits {digits : ℕ} : digits ≠ 0 → FitsDigits digits 1 :=
    FitsDigits.of_single ⟨1, 0, by norm_num, by norm_num⟩
  have twoFits {digits : ℕ} : digits ≠ 0 → FitsDigits digits 2 :=
    FitsDigits.of_single ⟨2, 0, by norm_num, by norm_num⟩
  have holds : 1 ≤ |(base.naturalPower count context).toRat| ∧
      (0 < count → 2 ≤ |(base.naturalPower count context).toRat|) := by
    apply scales.induction fun power value =>
      1 ≤ |value.toRat| ∧ (0 < power → 2 ≤ |value.toRat|)
    · rw [toRat_one, abs_one]
      exact ⟨le_rfl, fun impossible => absurd impossible (lt_irrefl 0)⟩
    · exact ⟨by linarith, fun _ => large⟩
    · intro i j left right _ stored isLeft isRight
      rw [stored.toRat_roundProduct]
      refine ⟨le_abs_roundSignificant oneFits ?_,
        fun sumPos => le_abs_roundSignificant twoFits ?_⟩
      · rw [abs_mul]
        exact one_le_mul_of_one_le_of_one_le isLeft.1 isRight.1
      · rw [abs_mul]
        rcases Nat.eq_zero_or_pos i with iZero | iPos
        · have := isRight.2 (by omega)
          nlinarith [isLeft.1]
        · have := isLeft.2 iPos
          nlinarith [isRight.1]
  exact holds.2 positive

theorem pow_eq_of_abs_eq_one {base : ℤ} (unit : |base| = 1) (count : ℕ) :
    base ^ count = 1 ∨ base ^ count = -1 :=
  eq_or_eq_neg_of_abs_eq (by rw [abs_pow, unit, one_pow])

/-- One and minus one are rounded in no context. -/
theorem roundTo_unit {unit : ℤ} (isUnit : unit = 1 ∨ unit = -1) (digits : ℕ)
    (mode : RoundingMode) : (ofInt unit).roundTo digits mode = ofInt unit := by
  refine roundTo_of_few fun limited => ?_
  have single : (ofInt unit).digitCount = 1 := by
    rcases isUnit with rfl | rfl <;> rfl
  omega

/-- The powers of one and minus one are integers with scale zero. -/
theorem naturalPower_unit {base : ℤ} (unit : |base| = 1) (count : ℕ)
    (context : MathContext) :
    (ofInt base).naturalPower count context = ofInt (base ^ count) := by
  apply naturalPower_induction fun power value => value = ofInt (base ^ power)
  · rw [pow_zero]
    rfl
  · rw [pow_one]
  · rintro i j _ _ rfl rfl
    have product : (ofInt (base ^ i)).multiply (ofInt (base ^ j)) =
        ofInt (base ^ (i + j)) := by
      rw [pow_add]
      rcases pow_eq_of_abs_eq_one unit i with isLeft | isLeft <;>
        rcases pow_eq_of_abs_eq_one unit j with isRight | isRight <;>
          rw [isLeft, isRight] <;> decide +kernel
    rw [product]
    exact roundTo_unit (pow_eq_of_abs_eq_one unit _) _ _

end NaturalPower

/-! ### Integral decimals -/

theorem isIntegral_iff {value : Decimal} :
    value.isIntegral = true ↔ ∃ whole : ℤ, value.toRat = whole := by
  have cases : value.isIntegral = true ↔
      value.coefficient = 0 ∨ value.scale ≤ 0 ∨
        value.scale < value.digitCount ∧
          value.coefficient % 10 ^ value.scale.toNat = 0 := by
    simp [isIntegral, isZero, or_assoc]
  rw [cases]
  by_cases atLeastUnits : value.scale ≤ 0
  · refine iff_of_true (.inr (.inl atLeastUnits)) ⟨value.coefficientAt 0, ?_⟩
    rw [intCast_coefficientAt atLeastUnits, zpow_zero, mul_one]
  obtain ⟨places, isPlaces⟩ :=
    Int.eq_ofNat_of_zero_le (by omega : 0 ≤ value.scale)
  have unitPos : (0 : ℚ) < ((10 ^ places : ℤ) : ℚ) := by positivity
  have isWhole (whole : ℤ) :
      value.toRat = whole ↔ value.coefficient = whole * 10 ^ places := by
    rw [toRat_eq_div isPlaces, div_eq_iff unitPos.ne']
    exact_mod_cast Iff.rfl
  simp only [isWhole, isPlaces, Int.toNat_natCast]
  constructor
  · rintro (isZero | below | ⟨-, divides⟩)
    · exact ⟨0, by rw [isZero, zero_mul]⟩
    · omega
    · obtain ⟨whole, rest⟩ := Int.dvd_of_emod_eq_zero divides
      exact ⟨whole, by rw [rest, mul_comm]⟩
  · rintro ⟨whole, rest⟩
    by_cases isZero : whole = 0
    · exact .inl (by rw [rest, isZero, zero_mul])
    refine .inr (.inr ⟨?_, by rw [rest]; exact Int.mul_emod_left _ _⟩)
    have long : 10 ^ places ≤ value.coefficient.natAbs := by
      rw [rest, Int.natAbs_mul, Int.natAbs_pow]
      exact Nat.le_mul_of_pos_left _ (Int.natAbs_pos.mpr isZero)
    have : ¬ value.digitCount ≤ places :=
      mt (Text.digitCount_le_iff (by omega)).mp (not_lt.mpr long)
    omega

theorem power_of_intCast {base exponent : Decimal} {count : ℤ}
    (isCount : exponent.toRat = count) (context : MathContext) :
    base.power exponent context =
      if count < 0 then
        if base.isZero then .error (.divisionByZero powerLabel)
        else .ok (context.roundInexact
          (one.divide (base.naturalPower count.natAbs context)))
      else .ok (context.round (base.naturalPower count.natAbs context)) := by
  have integral : exponent.isIntegral = true := isIntegral_iff.mpr ⟨count, isCount⟩
  have truncate : exponent.truncate = count := by
    rw [truncate_eq, isCount, truncated_intCast]
  rw [power, integral, truncate]
  rfl

theorem exactInteger_of_intCast {value : Decimal} {whole : ℤ}
    (isWhole : value.toRat = whole) (operation : String) :
    value.exactInteger operation = .ok whole := by
  rw [exactInteger, if_pos (isIntegral_iff.mpr ⟨whole, isWhole⟩), truncate_eq,
    isWhole, truncated_intCast]

/-! ### Reciprocals -/

section Reciprocal

variable {base : Decimal} {count : ℕ} {context : MathContext}

theorem ReciprocalFits.toRat_reciprocal (fits : base.ReciprocalFits count context)
    (nonzero : (base.naturalPower count context).toRat ≠ 0) :
    ∃ digits,
      (context.roundInexact (one.divide (base.naturalPower count context))).toRat =
        roundSignificant context.digits.toNat context.rounding
          (roundSignificant digits .halfUp
            (1 / (base.naturalPower count context).toRat)) := by
  obtain ⟨digits, -, isQuotient⟩ := toRat_divide fits.quotient nonzero
  refine ⟨digits, ?_⟩
  rw [MathContext.roundInexact, toRat_roundTo fits.result, isQuotient, toRat_one]

/-- Rounding twice keeps the reciprocal of a number of at least two between zero
and one half, so it is no integer. -/
theorem ReciprocalFits.isIntegral_reciprocal
    (fits : base.ReciprocalFits count context)
    (large : 2 ≤ |(base.naturalPower count context).toRat|) :
    (context.roundInexact
      (one.divide (base.naturalPower count context))).isIntegral = false := by
  have nonzero : (base.naturalPower count context).toRat ≠ 0 := by
    intro isZero
    rw [isZero, abs_zero] at large
    norm_num at large
  obtain ⟨digits, isReciprocal⟩ := fits.toRat_reciprocal nonzero
  set power := base.naturalPower count context
  set reciprocal := context.roundInexact (one.divide power)
  have halfFits {digits : ℕ} : digits ≠ 0 → FitsDigits digits (1 / 2) :=
    FitsDigits.of_single ⟨5, -1, by norm_num, by norm_num⟩
  have small : |1 / power.toRat| ≤ 1 / 2 := by
    rw [abs_div, abs_one]
    exact one_div_le_one_div_of_le two_pos large
  have atMost : |reciprocal.toRat| ≤ 1 / 2 := by
    rw [isReciprocal]
    exact abs_roundSignificant_le halfFits (abs_roundSignificant_le halfFits small)
  have notZero : reciprocal.toRat ≠ 0 := by
    rw [isReciprocal]
    exact roundSignificant_ne_zero
      (roundSignificant_ne_zero (one_div_ne_zero nonzero))
  refine Bool.eq_false_iff.mpr fun integral => ?_
  obtain ⟨whole, isWhole⟩ := isIntegral_iff.mp integral
  rw [isWhole] at atMost notZero
  have atLeastOne : (1 : ℚ) ≤ |(whole : ℚ)| := by
    exact_mod_cast Int.one_le_abs (Int.cast_ne_zero.mp notZero)
  linarith

/-- The reciprocal of one or minus one is itself, however it is rounded. -/
theorem reciprocal_unit {unit : ℤ} (isUnit : unit = 1 ∨ unit = -1)
    (context : MathContext) :
    context.roundInexact (one.divide (ofInt unit)) = ofInt unit := by
  have quotient : one.divide (ofInt unit) = ofInt unit := by
    rcases isUnit with rfl | rfl <;> decide +kernel
  rw [quotient]
  exact roundTo_unit isUnit _ _

end Reciprocal

end Decimal

/-! ### Powers of integers -/

section IntegerPower

variable {base exponent : ℤ} (context : MathContext)

theorem integerPower_of_neg (negative : exponent < 0) :
    integerPower base exponent context =
      if base = 0 then .error (.divisionByZero powerLabel)
      else (context.roundInexact (Decimal.one.divide
        ((Decimal.ofInt base).naturalPower exponent.natAbs context))).exactInteger
          powerLabel := by
  have isZero : (Decimal.ofInt base).isZero = true ↔ base = 0 := by
    rw [Decimal.isZero_iff, Decimal.toRat_ofInt, Int.cast_eq_zero]
  rw [integerPower, if_pos negative,
    Decimal.power_of_intCast (Decimal.toRat_ofInt exponent), if_pos negative]
  simp only [isZero]
  split <;> rfl

/-- A negative power of one or minus one is that of the opposite exponent. -/
theorem integerPower_unit_of_neg (unit : |base| = 1) (negative : exponent < 0) :
    integerPower base exponent context = .ok (base ^ exponent.natAbs) := by
  have nonzero : base ≠ 0 := abs_pos.mp (unit ▸ one_pos)
  rw [integerPower_of_neg context negative, if_neg nonzero,
    Decimal.naturalPower_unit unit,
    Decimal.reciprocal_unit (Decimal.pow_eq_of_abs_eq_one unit _)]
  exact Decimal.exactInteger_of_intCast (Decimal.toRat_ofInt _) _

theorem Decimal.reciprocalFits_ofInt {count : ℕ} (large : 1 < |base|)
    (short : count * ((ofInt base).digitCount + 2) ≤ 2 ^ 62) :
    (ofInt base).ReciprocalFits count context := by
  have nonzero : (ofInt base).toRat ≠ 0 := by
    rw [toRat_ofInt]
    exact Int.cast_ne_zero.mpr (abs_pos.mp (one_pos.trans large))
  exact reciprocalFits_of_size short
    (mt toRat_eq_zero.mpr (naturalPower_ne_zero nonzero count context))

/-- A negative power of any other integer has a fractional part. -/
theorem integerPower_inexact_of_neg (large : 1 < |base|) (negative : exponent < 0)
    (fits : (Decimal.ofInt base).ReciprocalFits exponent.natAbs context) :
    ∃ value : Decimal, value.isIntegral = false ∧
      integerPower base exponent context =
        .error (.inexactResult powerLabel value.write) := by
  have nonzero : base ≠ 0 := abs_pos.mp (one_pos.trans large)
  have atLeastTwo : 2 ≤ |(Decimal.ofInt base).toRat| := by
    have : (2 : ℤ) ≤ |base| := large
    rw [Decimal.toRat_ofInt]
    exact_mod_cast this
  have fractional := fits.isIntegral_reciprocal
    (fits.products.two_le_abs_naturalPower atLeastTwo
      (Int.natAbs_pos.mpr negative.ne))
  refine ⟨_, fractional, ?_⟩
  rw [integerPower_of_neg context negative, if_neg nonzero, Decimal.exactInteger,
    if_neg (Bool.eq_false_iff.mp fractional)]

theorem integerPower_unit_of_long (unit : |base| ≤ 1)
    (long : UInt32.size ≤ exponent) :
    integerPower base exponent context = .ok (base ^ exponent.toNat) := by
  have sizePos : (0 : ℤ) < UInt32.size := by decide
  have nonzero : exponent.toNat ≠ 0 := by omega
  have isUnit : base = 0 ∨ base = 1 ∨ base = -1 := by
    have := abs_le.mp unit
    omega
  rw [integerPower, if_neg (sizePos.trans_le long).not_gt, if_neg long.not_gt]
  rcases isUnit with rfl | rfl | rfl
  · simp [nonzero]
  · simp
  · rw [if_neg (by decide), if_pos rfl]
    split
    next even =>
      have : Even exponent.toNat := Nat.even_iff.mpr (by omega)
      rw [this.neg_one_pow]
    next odd =>
      have : Odd exponent.toNat := Nat.odd_iff.mpr (by omega)
      rw [this.neg_one_pow]

theorem integerPower_of_long (large : 1 < |base|)
    (long : UInt32.size ≤ exponent) :
    integerPower base exponent context =
      .error (.notRepresentable
        (Text.writeInt base ++ " ** " ++ Text.writeInt exponent) "big integer") := by
  have sizePos : (0 : ℤ) < UInt32.size := by decide
  have notUnit : ¬ (base = 0 ∨ base = 1) ∧ base ≠ -1 := by
    rcases lt_abs.mp large with positive | negative <;> omega
  rw [integerPower, if_neg (sizePos.trans_le long).not_gt, if_neg long.not_gt,
    if_neg notUnit.1, if_neg notUnit.2]
  rfl

theorem integerPower_of_natural (natural : 0 ≤ exponent)
    (short : exponent < UInt32.size) :
    integerPower base exponent context = .ok (base ^ exponent.toNat) := by
  rw [integerPower, if_neg natural.not_gt, if_pos short]

end IntegerPower

/-- The integer that an operand of one of the two integer representations is. -/
def Operand.integer? : Operand → Option ℤ
  | integer value => some value.toInt
  | bigInteger value => some value
  | _ => none

/-- Powers of integers go by the integers alone. -/
theorem ArithmeticOp.reduce_power_integers {left right : Operand}
    {base exponent : ℤ} (isBase : left.integer? = some base)
    (isExponent : right.integer? = some exponent) (context : MathContext) :
    power.reduce left right context =
      (integerPower base exponent context).map .bigInteger := by
  cases left <;> cases isBase <;> cases right <;> cases isExponent <;> rfl

/-- What the power of two integers comes to: it is exact, or refused with the
reason.  A negative power with a fractional part is recognised as such if the scales
on the way to it fit. -/
structure ExactOrRefused (base exponent : ℤ) (context : MathContext)
    (result : Except NumberError Operand) : Prop where
  natural : 0 ≤ exponent → exponent < UInt32.size →
    result = .ok (.bigInteger (base ^ exponent.toNat))
  long_unit : UInt32.size ≤ exponent → |base| ≤ 1 →
    result = .ok (.bigInteger (base ^ exponent.toNat))
  long : UInt32.size ≤ exponent → 1 < |base| →
    result = .error (.notRepresentable
      (Text.writeInt base ++ " ** " ++ Text.writeInt exponent) "big integer")
  negative_zero : exponent < 0 → base = 0 →
    result = .error (.divisionByZero powerLabel)
  negative_unit : exponent < 0 → |base| = 1 →
    result = .ok (.bigInteger (base ^ exponent.natAbs))
  negative : exponent < 0 → 1 < |base| →
    (Decimal.ofInt base).ReciprocalFits exponent.natAbs context →
    ∃ value : Decimal, value.isIntegral = false ∧
      result = .error (.inexactResult powerLabel value.write)
  negative_short : exponent < 0 → 1 < |base| →
    exponent.natAbs * ((Decimal.ofInt base).digitCount + 2) ≤ 2 ^ 62 →
    ∃ value : Decimal, value.isIntegral = false ∧
      result = .error (.inexactResult powerLabel value.write)

/-- Whatever the digit budget and the rounding mode, a power of integers is exact
or refused: rounding never makes an integer of one that is not. -/
theorem Operand.integer_power_exact_or_refused {left right : Operand}
    {base exponent : ℤ} (isBase : left.integer? = some base)
    (isExponent : right.integer? = some exponent) (context : MathContext) :
    ExactOrRefused base exponent context
      (ArithmeticOp.power.reduce left right context) := by
  rw [ArithmeticOp.reduce_power_integers isBase isExponent]
  constructor
  · intro natural short
    rw [integerPower_of_natural context natural short]
    rfl
  · intro long unit
    rw [integerPower_unit_of_long context unit long]
    rfl
  · intro long large
    rw [integerPower_of_long context large long]
    rfl
  · intro negative isZero
    rw [integerPower_of_neg context negative, if_pos isZero]
    rfl
  · intro negative unit
    rw [integerPower_unit_of_neg context unit negative]
    rfl
  · intro negative large fits
    obtain ⟨value, fractional, isError⟩ :=
      integerPower_inexact_of_neg context large negative fits
    exact ⟨value, fractional, by rw [isError]; rfl⟩
  · intro negative large short
    obtain ⟨value, fractional, isError⟩ := integerPower_inexact_of_neg context large
      negative (Decimal.reciprocalFits_ofInt context large short)
    exact ⟨value, fractional, by rw [isError]; rfl⟩

/-- One digit rounded up does not make an integer of minus one eighth. -/
theorem integer_power_exact_or_refused_minusTwo :
    let left : Operand := .integer (-2)
    let right : Operand := .bigInteger (-3)
    left.integer? = some (-2) ∧ right.integer? = some (-3) ∧
      ∃ value : Decimal, value.isIntegral = false ∧
        ArithmeticOp.power.reduce left right ⟨1, .up⟩ =
          .error (.inexactResult "power" value.write) := by
  intro left right
  have isBase : left.integer? = some (-2) := rfl
  have isExponent : right.integer? = some (-3) := rfl
  have power := Operand.integer_power_exact_or_refused isBase isExponent ⟨1, .up⟩
  exact ⟨isBase, isExponent, power.negative_short (by decide) (by decide) (by decide)⟩

/-- Where the scales do not fit, a fractional part is lost.  The reciprocal of ten to
the power of `2 ^ 64 - 1` comes out as ten. -/
theorem integer_power_wraps :
    let base : ℤ := 1000
    let exponent : ℤ := -6148914691236517205
    let context := MathContext.decimal128
    context.precision.toNat + 4 < 2 ^ 64 ∧ exponent < 0 ∧ 2 ≤ |base| ∧
      ArithmeticOp.power.reduce (.bigInteger base) (.bigInteger exponent) context =
        .ok (.bigInteger 10) := by
  decide +kernel

/-! ### Powers of decimals -/

section DecimalPower

variable {base exponent : Decimal} {count : ℕ} {context : MathContext}

/-- Where the power fits the budget, all powers below it fit the digits of
products. -/
theorem MathContext.fitsDigits_lower {lower : ℕ}
    (room : context.isUnlimited = true ∨
      context.precision.toNat + 4 < 2 ^ 64 ∧
        FitsDigits context.precision.toNat (base.toRat ^ count))
    (atMost : lower ≤ count) (rounded : context.productDigits ≠ 0) :
    FitsDigits context.productDigits (base.toRat ^ lower) := by
  have limited : context.isUnlimited = false := by
    by_contra unlimited
    exact rounded (if_pos (Bool.not_eq_false _ ▸ unlimited))
  obtain ⟨wide, fits⟩ : context.precision.toNat + 4 < 2 ^ 64 ∧
      FitsDigits context.precision.toNat (base.toRat ^ count) := by
    simpa [limited] using room
  have digits := MathContext.productDigits_of_limited limited wide
  rw [digits] at rounded ⊢
  exact (fits.mono (Nat.le_add_right _ 4)).pow_of_le rounded atMost

/-- In the unlimited context a decimal raised to a natural number gives the exact
power, if the scales on the way to it fit; so it does where the power fits the
budget, if the budget leaves room for the guard digits. -/
theorem Decimal.power_exact_of_fits (isCount : exponent.toRat = count)
    (scales : base.PowerFits count context)
    (room : context.isUnlimited = true ∨
      context.precision.toNat + 4 < 2 ^ 64 ∧
        FitsDigits context.precision.toNat (base.toRat ^ count)) :
    ∃ power, ArithmeticOp.power.reduce (.bigDecimal base) (.bigDecimal exponent)
        context = .ok (.bigDecimal power) ∧
      power.toRat = base.toRat ^ count := by
  have natural : ¬ (count : ℤ) < 0 := (Int.natCast_nonneg count).not_gt
  have isPower : base.power exponent context =
      .ok (context.round (base.naturalPower count context)) := by
    rw [power_of_intCast (by exact_mod_cast isCount), if_neg natural,
      Int.natAbs_natCast]
  have isExact : (base.naturalPower count context).toRat = base.toRat ^ count :=
    scales.products.toRat_naturalPower fun lower atMost =>
      context.fitsDigits_lower room atMost
  have fits (limited : context.precision.toNat ≠ 0) :
      FitsDigits context.precision.toNat (base.toRat ^ count) := by
    rcases room with unlimited | ⟨-, fits⟩
    · have isZero : context.precision = 0 := beq_iff_eq.mp unlimited
      exact absurd (congrArg UInt64.toNat isZero) limited
    · exact fits
  refine ⟨context.round (base.naturalPower count context), ?_, ?_⟩
  · change (base.power exponent context).map Operand.bigDecimal = _
    rw [isPower]
    rfl
  · rw [MathContext.toRat_round scales.result, isExact, MathContext.roundRat,
      roundSignificant_of_fits fits]

end DecimalPower

/-- `1.10` to the power of `6.0` is `1.771561`, which takes all seven digits. -/
theorem power_exact_of_fits_tenths :
    let base : Decimal := ⟨110, 2⟩
    let exponent : Decimal := ⟨60, 1⟩
    exponent.toRat = (6 : ℕ) ∧ base.PowerFits 6 .decimal32 ∧
      MathContext.decimal32.precision.toNat + 4 < 2 ^ 64 ∧
      FitsDigits MathContext.decimal32.precision.toNat (base.toRat ^ 6) ∧
      ∃ power, ArithmeticOp.power.reduce (.bigDecimal base)
          (.bigDecimal exponent) .decimal32 = .ok (.bigDecimal power) ∧
        power.toRat = base.toRat ^ 6 := by
  intro base exponent
  have isSix : exponent.toRat = (6 : ℕ) := by
    simp [exponent, Decimal.toRat, Decimal.scale]
    norm_num
  have scales : base.PowerFits 6 .decimal32 :=
    Decimal.powerFits_of_size (by decide)
  have room : MathContext.decimal32.precision.toNat + 4 < 2 ^ 64 := by decide
  have fits : FitsDigits MathContext.decimal32.precision.toNat
      (base.toRat ^ 6) := by
    refine ⟨1771561, -6, by decide, ?_⟩
    simp [base, Decimal.toRat, Decimal.scale]
    norm_num
  exact ⟨isSix, scales, room, fits,
    Decimal.power_exact_of_fits isSix scales (.inr ⟨room, fits⟩)⟩

/-- Where the scales do not fit, a power is lost.  A power of ten with the exponent
`(2 ^ 64 - 1) / 3`, raised to three in the unlimited context, comes out as one
tenth. -/
theorem power_wraps :
    let base : Decimal := ⟨1, -6148914691236517205⟩
    ArithmeticOp.power.reduce (.bigDecimal base) (.bigDecimal (.ofInt 3))
        .unlimited = .ok (.bigDecimal ⟨1, 1⟩) ∧
      (⟨1, 1⟩ : Decimal).toRat ≠ base.toRat ^ 3 := by
  intro base
  refine ⟨by decide +kernel, fun same => ?_⟩
  have isBase : base.toRat = 10 ^ (6148914691236517205 : ℤ) := by
    have isScale : base.scale = -6148914691236517205 := rfl
    rw [Decimal.toRat, isScale, neg_neg, Int.cast_one, one_mul]
  have isTenth : (⟨1, 1⟩ : Decimal).toRat = 1 / 10 := by
    simp [Decimal.toRat, Decimal.scale]
  have large : 1 ≤ base.toRat ^ 3 := by
    rw [isBase]
    exact one_le_pow₀ (one_le_zpow₀ (by norm_num) (by norm_num))
  rw [← same, isTenth] at large
  norm_num at large

end FormulaEngine
