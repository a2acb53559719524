import FormulaEngine.Number.Reduction
import FormulaEngine.Proofs.Decimal.Division
import FormulaEngine.Proofs.Decimal.RoundingError

/-!
# Rounded quotients

A decimal quotient is cut to one hundred digits or more before it is rounded to
the context.  The numbers of one digit more than the context keeps are those
where a rounding may change, and the second rounding only notices the first
where the cut ends at one of them.  A quotient of operands with few digits stays
too far away from such numbers, unless it is one itself.
-/

namespace FormulaEngine

/-- Roundings only change at the integers and halfway between them. -/
theorem RoundingMode.toInt_eq_of_between (mode : RoundingMode) (half : ℤ) {x y : ℚ}
    (xAbove : half < 2 * x) (xBelow : 2 * x < half + 1) (yAbove : half < 2 * y)
    (yBelow : 2 * y < half + 1) : mode.toInt x = mode.toInt y := by
  obtain ⟨whole, near, cell⟩ : ∃ whole near : ℤ, ∀ {z : ℚ}, half < 2 * z →
      2 * z < half + 1 → ⌊z⌋ = whole ∧ ⌈z⌉ = whole + 1 ∧ ⌊z + 1 / 2⌋ = near ∧
        ⌈z - 1 / 2⌉ = near ∧ (z < 0 ↔ whole < 0) := by
    have sign {whole : ℤ} {z : ℚ} (above : whole < z) (below : z < whole + 1) :
        z < 0 ↔ whole < 0 := by
      constructor
      · intro negative
        exact_mod_cast above.trans negative
      · intro negative
        have : (whole : ℚ) + 1 ≤ 0 := by exact_mod_cast negative
        linarith
    obtain ⟨whole, rfl | rfl⟩ := Int.even_or_odd' half
    · refine ⟨whole, whole, fun above below => ?_⟩
      push_cast at above below
      refine ⟨Int.floor_eq_iff.mpr ⟨?_, ?_⟩, Int.ceil_eq_iff.mpr ⟨?_, ?_⟩,
        Int.floor_eq_iff.mpr ⟨?_, ?_⟩, Int.ceil_eq_iff.mpr ⟨?_, ?_⟩, sign ?_ ?_⟩
      all_goals push_cast; linarith
    · refine ⟨whole, whole + 1, fun above below => ?_⟩
      push_cast at above below
      refine ⟨Int.floor_eq_iff.mpr ⟨?_, ?_⟩, Int.ceil_eq_iff.mpr ⟨?_, ?_⟩,
        Int.floor_eq_iff.mpr ⟨?_, ?_⟩, Int.ceil_eq_iff.mpr ⟨?_, ?_⟩, sign ?_ ?_⟩
      all_goals push_cast; linarith
  obtain ⟨xFloor, xCeil, xAfter, xBefore, xSign⟩ := cell xAbove xBelow
  obtain ⟨yFloor, yCeil, yAfter, yBefore, ySign⟩ := cell yAbove yBelow
  cases mode <;> simp only [toInt, truncated, xFloor, xCeil, xAfter, xBefore, xSign,
    yFloor, yCeil, yAfter, yBefore, ySign]

section Boundaries

variable {digits : ℕ} {mode : RoundingMode} {x y : ℚ}

theorem PassesNone.neg (none : PassesNone digits x y) : PassesNone digits (-x) (-y) where
  lower fits atMost := le_neg_of_le_neg (none.upper fits.neg (le_neg_of_le_neg atMost))
  upper fits atLeast := neg_le_of_neg_le (none.lower fits.neg (neg_le_of_neg_le atLeast))

/-- On the way to a number that does not fit, the leading digit keeps its place. -/
theorem PassesNone.log_eq (none : PassesNone digits x y) (limited : digits ≠ 0)
    (between : ¬ FitsDigits digits y) (positive : 0 < x) :
    0 < y ∧ Int.log 10 |y| = Int.log 10 |x| := by
  have powerFits (exponent : ℤ) : FitsDigits digits (10 ^ exponent) :=
    (fitsDigits_ten_zpow exponent).of_single limited
  have leading : 10 ^ Int.log 10 |x| ≤ y :=
    none.lower (powerFits _) ((zpow_log_le_abs positive.ne').trans_eq (abs_of_pos positive))
  have yPositive : 0 < y := (Decimal.ten_zpow_pos _).trans_le leading
  have below : y < 10 ^ (Int.log 10 |x| + 1) := by
    refine lt_of_le_of_ne (none.upper (powerFits _) ?_) ?_
    · exact (le_abs_self x).trans (abs_lt_zpow_log x).le
    · intro isPower
      exact between (isPower ▸ powerFits _)
  refine ⟨yPositive, ?_⟩
  rw [abs_of_pos yPositive]
  have notShorter := (Int.zpow_le_iff_le_log (b := 10) (by norm_num) yPositive).mp
    (by exact_mod_cast leading)
  have notLonger := (Int.lt_zpow_iff_log_lt (b := 10) (by norm_num) yPositive).mp
    (by exact_mod_cast below)
  omega

/-- A number stands between two half units of its last digit, and these fit one
digit more. -/
theorem exists_half_units (digits : ℕ) (nonneg : 0 ≤ x) :
    ∃ half : ℤ, FitsDigits (digits + 1) (half * (lastUnit digits x / 2)) ∧
      FitsDigits (digits + 1) ((half + 1) * (lastUnit digits x / 2)) ∧
      half * (lastUnit digits x / 2) ≤ x ∧ x < (half + 1) * (lastUnit digits x / 2) := by
  have short := (abs_lt.mp (abs_lt_mul_lastUnit digits x)).2
  have halfPos : 0 < lastUnit digits x / 2 := half_pos (lastUnit_pos digits x)
  have boundaryFits {count : ℤ} (atLeast : 0 ≤ count) (atMost : count ≤ 2 * 10 ^ digits) :
      FitsDigits (digits + 1) (count * (lastUnit digits x / 2)) := by
    have isBoundary : count * (lastUnit digits x / 2) =
        ((5 * count : ℤ) : ℚ) * 10 ^ (Int.log 10 |x| + 1 - digits - 1) := by
      rw [lastUnit, zpow_sub_one₀ (by norm_num)]
      push_cast
      ring
    rw [isBoundary]
    refine fitsDigits_of_abs_le digits.succ_ne_zero ?_ _
    rw [abs_of_nonneg (by omega), pow_succ]
    omega
  set half := ⌊x / (lastUnit digits x / 2)⌋ with isHalf
  have atLeast : 0 ≤ half := Int.floor_nonneg.mpr (div_nonneg nonneg halfPos.le)
  have atMost : half < 2 * 10 ^ digits := by
    refine Int.floor_lt.mpr ((div_lt_iff₀ halfPos).mpr ?_)
    push_cast
    linarith
  refine ⟨half, boundaryFits atLeast atMost.le, ?_,
    (le_div_iff₀ halfPos).mp (Int.floor_le _),
    (div_lt_iff₀ halfPos).mp (Int.lt_floor_add_one _)⟩
  exact_mod_cast boundaryFits (by omega : 0 ≤ half + 1) atMost

/-- The numbers of one digit more are where a rounding may change. -/
theorem roundSignificant_eq_of_passesNone (limited : digits ≠ 0)
    (none : PassesNone (digits + 1) x y) (between : ¬ FitsDigits (digits + 1) y) :
    roundSignificant digits mode y = roundSignificant digits mode x := by
  wlog positive : 0 < x generalizing x y mode
  · rcases (not_lt.mp positive).lt_or_eq with negative | rfl
    · have mirrored : roundSignificant digits mode.mirrored (-y) =
          roundSignificant digits mode.mirrored (-x) :=
        this none.neg (mt FitsDigits.neg (by rwa [neg_neg])) (neg_pos.mpr negative)
      rw [← neg_neg y, roundSignificant_neg, mirrored, ← roundSignificant_neg, neg_neg]
    · have zeroFits := fitsDigits_zero (digits + 1)
      have isZero : y = 0 :=
        le_antisymm (none.upper zeroFits le_rfl) (none.lower zeroFits le_rfl)
      rw [isZero]
  obtain ⟨yPositive, sameLog⟩ := none.log_eq digits.succ_ne_zero between positive
  have sameUnit : lastUnit digits y = lastUnit digits x := by
    rw [lastUnit, lastUnit, sameLog]
  have halfPos : 0 < lastUnit digits x / 2 := half_pos (lastUnit_pos digits x)
  obtain ⟨half, lowerFits, upperFits, xAtLeast, xBelow⟩ :=
    exists_half_units digits positive.le
  -- Neither boundary is passed, and neither is reached.
  have yAbove : half * (lastUnit digits x / 2) < y :=
    (none.lower lowerFits xAtLeast).lt_of_ne fun same => between (same ▸ lowerFits)
  have yBelow : y < (half + 1) * (lastUnit digits x / 2) :=
    (none.upper upperFits xBelow.le).lt_of_ne fun same => between (same ▸ upperFits)
  have xAbove : half * (lastUnit digits x / 2) < x :=
    xAtLeast.lt_of_ne fun same => yAbove.not_ge (none.upper lowerFits same.ge)
  have halves (z : ℚ) : 2 * (z / lastUnit digits x) = z / (lastUnit digits x / 2) := by
    ring
  have sameInt : mode.toInt (y / lastUnit digits x) = mode.toInt (x / lastUnit digits x) := by
    apply mode.toInt_eq_of_between half
    all_goals rw [halves]
    · exact (lt_div_iff₀ halfPos).mpr yAbove
    · exact (div_lt_iff₀ halfPos).mpr yBelow
    · exact (lt_div_iff₀ halfPos).mpr xAbove
    · exact (div_lt_iff₀ halfPos).mpr xBelow
  rw [roundSignificant, roundSignificant, if_neg (by simp [limited, yPositive.ne']),
    if_neg (by simp [limited, positive.ne']), sameUnit, sameInt]

/-- A first rounding that leaves more digits is not noticed, unless it ends where
the second one may change. -/
theorem roundSignificant_roundSignificant {more : ℕ} {first : RoundingMode}
    (limited : digits ≠ 0) (longer : digits < more)
    (between : ¬ FitsDigits (digits + 1) (roundSignificant more first x)) :
    roundSignificant digits mode (roundSignificant more first x) =
      roundSignificant digits mode x :=
  roundSignificant_eq_of_passesNone limited
    ((passesNone_self (digits + 1) x).round longer first) between

end Boundaries

/-! ### Quotients of short operands -/

theorem le_abs_sub_of_ne {count other exponent otherExponent : ℤ}
    (apart : (count : ℚ) * 10 ^ exponent ≠ other * 10 ^ otherExponent)
    (finer : exponent ≤ otherExponent) :
    (10 : ℚ) ^ exponent ≤
      |(count : ℚ) * 10 ^ exponent - other * 10 ^ otherExponent| := by
  obtain ⟨places, rfl⟩ := Int.le.dest finer
  have isMultiple : (count : ℚ) * 10 ^ exponent - other * 10 ^ (exponent + places) =
      ((count - other * 10 ^ places : ℤ) : ℚ) * 10 ^ exponent := by
    rw [zpow_add₀ (by norm_num), zpow_natCast]
    push_cast
    ring
  have nonzero : count - other * 10 ^ places ≠ 0 := by
    intro isZero
    rw [isZero, Int.cast_zero, zero_mul] at isMultiple
    exact apart (sub_eq_zero.mp isMultiple)
  rw [isMultiple, abs_mul, abs_of_pos (Decimal.ten_zpow_pos _)]
  refine le_mul_of_one_le_left (Decimal.ten_zpow_pos _).le ?_
  exact_mod_cast Int.one_le_abs nonzero

section Quotient

variable {leftDigits rightDigits kept digits : ℕ} {mode : RoundingMode} {x y : ℚ}

theorem lastUnit_div_mul_le_left {left exponent : ℤ} (few : |left| < 10 ^ leftDigits)
    (isLeft : x = left * 10 ^ exponent) (quotientNonzero : x / y ≠ 0)
    (room : leftDigits < digits) : lastUnit digits (x / y) * |y| ≤ 10 ^ exponent := by
  have divisorNonzero : y ≠ 0 := (div_ne_zero_iff.mp quotientNonzero).2
  have short := abs_mul_zpow_lt few exponent
  rw [← isLeft] at short
  calc lastUnit digits (x / y) * |y| ≤ 10 ^ (1 - digits : ℤ) * |x / y| * |y| :=
        mul_le_mul_of_nonneg_right (lastUnit_le_mul_abs digits quotientNonzero)
          (abs_nonneg y)
    _ = 10 ^ (1 - digits : ℤ) * |x| := by
        rw [mul_assoc, ← abs_mul, div_mul_cancel₀ _ divisorNonzero]
    _ ≤ 10 ^ (1 - digits : ℤ) * 10 ^ (leftDigits + exponent) :=
        mul_le_mul_of_nonneg_left short.le (Decimal.ten_zpow_pos _).le
    _ = 10 ^ (1 - digits + (leftDigits + exponent) : ℤ) :=
        (zpow_add₀ (by norm_num) _ _).symm
    _ ≤ 10 ^ exponent := zpow_le_zpow_right₀ (by norm_num) (by omega)

theorem lastUnit_mul_le_right {right exponent : ℤ} (few : |right| < 10 ^ rightDigits)
    (isRight : y = right * 10 ^ exponent) (room : kept + rightDigits ≤ digits) :
    lastUnit digits x * |y| ≤ 10 ^ (Int.log 10 |x| + 1 - kept + exponent) := by
  have short := abs_mul_zpow_lt few exponent
  rw [← isRight] at short
  calc lastUnit digits x * |y| ≤ lastUnit digits x * 10 ^ (rightDigits + exponent) :=
        mul_le_mul_of_nonneg_left short.le (lastUnit_pos _ _).le
    _ = 10 ^ (Int.log 10 |x| + 1 - digits + (rightDigits + exponent)) :=
        (zpow_add₀ (by norm_num) _ _).symm
    _ ≤ 10 ^ (Int.log 10 |x| + 1 - kept + exponent) :=
        zpow_le_zpow_right₀ (by norm_num) (by omega)

/-- A quotient that is cut to a short number has not lost anything, if its
operands are short as well. -/
theorem roundSignificant_div_of_fits (xFits : FitsDigits leftDigits x)
    (yFits : FitsDigits rightDigits y) (nonzero : y ≠ 0) (leftRoom : leftDigits < digits)
    (rightRoom : kept + rightDigits ≤ digits)
    (fits : FitsDigits kept (roundSignificant digits mode (x / y))) :
    roundSignificant digits mode (x / y) = x / y := by
  by_cases isZero : x / y = 0
  · rw [roundSignificant, if_pos (.inr isZero)]
  have cutNonzero : roundSignificant digits mode (x / y) ≠ 0 :=
    roundSignificant_ne_zero isZero
  have near : |roundSignificant digits mode (x / y) - x / y| <
      lastUnit digits (x / y) := abs_roundSignificant_sub_lt (by omega)
  have longer : Int.log 10 |x / y| ≤ Int.log 10 |roundSignificant digits mode (x / y)| := by
    refine (Int.zpow_le_iff_le_log (by norm_num) (abs_pos.mpr cutNonzero)).mp ?_
    exact_mod_cast le_abs_roundSignificant (fitsDigits_ten_zpow _).of_single
      (zpow_log_le_abs isZero)
  obtain ⟨count, isCut⟩ := fits.exists_eq_mul_lastUnit cutNonzero longer
  set cut := roundSignificant digits mode (x / y)
  obtain ⟨left, leftExponent, leftFew, isLeft⟩ := xFits
  obtain ⟨right, rightExponent, rightFew, isRight⟩ := yFits
  set cutExponent := Int.log 10 |x / y| + 1 - kept + rightExponent with isCutExponent
  have isProduct : cut * y = ((count * right : ℤ) : ℚ) * 10 ^ cutExponent := by
    rw [isCut, isCutExponent, zpow_add₀ (by norm_num), ← lastUnit]
    nth_rewrite 2 [isRight]
    push_cast
    ring
  by_contra apart
  have productApart : cut * y ≠ x := fun same => apart ((eq_div_iff nonzero).mpr same)
  have productNear : |cut * y - x| < lastUnit digits (x / y) * |y| := by
    have : cut * y - x = (cut - x / y) * y := by
      rw [sub_mul, div_mul_cancel₀ _ nonzero]
    rw [this, abs_mul]
    exact mul_lt_mul_of_pos_right near (abs_pos.mpr nonzero)
  -- But they are a unit of the finer of the two apart.
  rcases le_total leftExponent cutExponent with leftFiner | cutFiner
  · have unit := lastUnit_div_mul_le_left leftFew isLeft isZero leftRoom
    rw [isProduct, isLeft] at productApart
    have far := le_abs_sub_of_ne productApart.symm leftFiner
    rw [← isProduct, ← isLeft, abs_sub_comm] at far
    exact (productNear.trans_le unit).not_ge far
  · have unit : lastUnit digits (x / y) * |y| ≤ 10 ^ cutExponent :=
      lastUnit_mul_le_right rightFew isRight rightRoom
    rw [isProduct, isLeft] at productApart
    have far := le_abs_sub_of_ne productApart cutFiner
    rw [← isProduct, ← isLeft] at far
    exact (productNear.trans_le unit).not_ge far

end Quotient

namespace Decimal

/-- The scales of a quotient, before and after it is rounded to a context, fit their
word. -/
structure QuotientFits (left right : Decimal) (context : MathContext) : Prop where
  quotient : (left.divideExact right).Fits
  result : (context.roundExact (left.divide right)).Fits

/-- A decimal quotient is rounded half up to one hundred digits or more, and from
there to the context, as long as its scales fit.  A budget of at most one hundred
digits is met with an error of less than one unit, and the two roundings are as good
as one where the quotient or both of the operands are short. -/
theorem divide_accuracy {left right : Decimal} {context : MathContext}
    (nonzero : right.toRat ≠ 0) (limited : context.isUnlimited = false)
    (scales : left.QuotientFits right context) :
    ∃ (quotient : Decimal) (digits : ℕ),
      ArithmeticOp.divide.reduce (.bigDecimal left) (.bigDecimal right) context =
        .ok (.bigDecimal quotient) ∧
      quotientDigits ≤ digits ∧
      quotient.toRat = context.roundRat
        (roundSignificant digits .halfUp (left.toRat / right.toRat)) ∧
      (context.precision.toNat ≤ quotientDigits →
        |quotient.toRat - left.toRat / right.toRat| <
          lastUnit context.precision.toNat (left.toRat / right.toRat)) ∧
      (FitsDigits quotientDigits (left.toRat / right.toRat) ∨
          (FitsDigits (quotientDigits - 1) left.toRat ∧ ∃ rightDigits,
            FitsDigits rightDigits right.toRat ∧
              context.precision.toNat + rightDigits < quotientDigits) →
        quotient.toRat = context.roundRat (left.toRat / right.toRat)) := by
  have isZero : right.isZero = false :=
    Bool.eq_false_iff.mpr (mt isZero_iff.mp nonzero)
  obtain ⟨digits, enough, isCut⟩ := toRat_divide scales.quotient nonzero
  have rounded : (context.roundInexact (left.divide right)).toRat =
      context.roundRat (left.divide right).toRat := by
    rw [MathContext.roundInexact_eq_round limited,
      MathContext.toRat_round scales.result]
  refine ⟨context.roundInexact (left.divide right), digits, ?_, enough, ?_, ?_, ?_⟩
  · change ArithmeticOp.divide.onDecimals left right context = _
    simp [ArithmeticOp.onDecimals, isZero]
  · rw [rounded, isCut]
  · intro within
    rw [rounded, isCut]
    exact ((passesNone_self _ _).round (within.trans enough) _).round le_rfl _
      |>.abs_sub_lt (MathContext.precision_ne_zero limited)
  · rw [rounded, isCut]
    rintro (fits | ⟨leftFits, rightDigits, rightFits, room⟩)
    · rw [roundSignificant_of_fits fun _ => fits.mono enough]
    by_cases cutFits : FitsDigits (context.precision.toNat + 1)
        (roundSignificant digits .halfUp (left.toRat / right.toRat))
    · rw [roundSignificant_div_of_fits leftFits rightFits nonzero (by omega)
        (by omega) cutFits]
    · exact roundSignificant_roundSignificant
        (MathContext.precision_ne_zero limited) (by omega) cutFits

/-- One by three, in thirty-four digits. -/
theorem divide_accuracy_third :
    let one : Decimal := ⟨1, 0⟩
    let three : Decimal := ⟨3, 0⟩
    let context := MathContext.decimal128
    three.toRat ≠ 0 ∧ context.isUnlimited = false ∧
      one.QuotientFits three context ∧ ∃ quotient : Decimal,
      ArithmeticOp.divide.reduce (.bigDecimal one) (.bigDecimal three) context =
        .ok (.bigDecimal quotient) ∧
      quotient.toRat = context.roundRat (one.toRat / three.toRat) := by
  intro one three context
  have nonzero : three.toRat ≠ 0 := by simp [three, toRat, scale]
  have limited : context.isUnlimited = false := rfl
  have scales : one.QuotientFits three context :=
    ⟨by decide +kernel, by decide +kernel⟩
  have oneFits : FitsDigits 1 one.toRat := fitsDigits_toRat (by decide)
  have threeFits : FitsDigits 1 three.toRat := fitsDigits_toRat (by decide)
  obtain ⟨quotient, -, reduces, -, -, -, once⟩ :=
    divide_accuracy nonzero limited scales
  exact ⟨nonzero, limited, scales, quotient, reduces,
    once (.inr ⟨oneFits.mono (by decide), 1, threeFits, by decide⟩)⟩

theorem le_roundSignificant_up (digits : ℕ) {x : ℚ} (nonneg : 0 ≤ x) :
    x ≤ roundSignificant digits .up x := by
  have unitPos := lastUnit_pos digits x
  have notNegative : ¬ x / lastUnit digits x < 0 :=
    not_lt.mpr (div_nonneg nonneg unitPos.le)
  rw [roundSignificant, RoundingMode.toInt, if_neg notNegative]
  split_ifs
  · exact le_rfl
  · exact (div_le_iff₀ unitPos).mp (Int.le_ceil _)

/-- A quotient that is not the exact quotient, rounded to the context. -/
def MissesQuotient (left right : Decimal) (context : MathContext) : Prop :=
  ∃ quotient : Decimal,
    ArithmeticOp.divide.reduce (.bigDecimal left) (.bigDecimal right) context =
      .ok (.bigDecimal quotient) ∧
    quotient.toRat ≠ context.roundRat (left.toRat / right.toRat)

/-- A budget of more than one hundred digits is not used up: a third keeps one
hundred.  In a shorter budget, what the cut loses is not rounded up: a third of
`3 · 10 ^ 120 + 1` comes out as `10 ^ 120`. -/
theorem missesQuotient_third :
    MissesQuotient ⟨1, 0⟩ ⟨3, 0⟩ ⟨200, .halfEven⟩ ∧
      MissesQuotient ⟨3 * 10 ^ 120 + 1, 0⟩ ⟨3, 0⟩ ⟨5, .up⟩ := by
  constructor
  · refine ⟨⟨(10 ^ 100 - 1) / 3, 100⟩, by decide +kernel, fun once => ?_⟩
    have isThird : (⟨1, 0⟩ : Decimal).toRat / (⟨3, 0⟩ : Decimal).toRat = 1 / 3 := by
      simp [toRat, scale]
    have unit : lastUnit 200 (1 / 3 : ℚ) = 10 ^ (-200 : ℤ) :=
      @lastUnit_of_bounds 200 200 _ (by norm_num) (by norm_num) (by norm_num)
    have near : |roundSignificant 200 .halfEven (1 / 3) - 1 / 3| <
        lastUnit 200 (1 / 3 : ℚ) := abs_roundSignificant_sub_lt (by norm_num)
    rw [isThird] at once
    change _ = roundSignificant 200 .halfEven (1 / 3) at once
    have isScale : (⟨(10 ^ 100 - 1) / 3, 100⟩ : Decimal).scale = 100 := rfl
    rw [← once, unit, toRat, isScale] at near
    norm_num [abs_of_neg] at near
  · refine ⟨⟨10 ^ 4, -116⟩, by decide +kernel, fun once => ?_⟩
    have exact : (⟨3 * 10 ^ 120 + 1, 0⟩ : Decimal).toRat / (⟨3, 0⟩ : Decimal).toRat =
        10 ^ 120 + 1 / 3 := by
      simp only [toRat, scale, Int64.toInt_zero]
      norm_num
    rw [exact] at once
    have atLeast : (10 ^ 120 + 1 / 3 : ℚ) ≤
        roundSignificant 5 .up (10 ^ 120 + 1 / 3) :=
      le_roundSignificant_up 5 (by norm_num)
    change _ = roundSignificant 5 .up (10 ^ 120 + 1 / 3) at once
    have isScale : (⟨10 ^ 4, -116⟩ : Decimal).scale = -116 := rfl
    rw [← once, toRat, isScale] at atLeast
    norm_num at atLeast

end Decimal

end FormulaEngine
