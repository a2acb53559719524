import FormulaEngine.Proofs.Number.Squaring

/-!
# Scales of powers

The digits of a decimal stand at certain places in front of the point and behind it.
A product needs as many places as its factors together, and rounding may need one
more in front.  So the places on the way to a power grow with the exponent, and
their scales fit their word as long as the exponent times the size of the base does.
-/

namespace FormulaEngine

namespace Text

theorem digitCount_mul_le (first second : ℕ) :
    digitCount (first * second) ≤ digitCount first + digitCount second := by
  refine (digitCount_le_iff (Nat.add_pos_left (digitCount_pos first) _)).mpr ?_
  rw [pow_add]
  exact Nat.mul_lt_mul'' (lt_ten_pow_digitCount first) (lt_ten_pow_digitCount second)

theorem digitCount_add_le {value : ℕ} (positive : 0 < value) (zeros : ℕ) :
    digitCount value + zeros ≤ digitCount (value * 10 ^ zeros) := by
  by_contra fewer
  have bound := lt_ten_pow_digitCount (value * 10 ^ zeros)
  have count : digitCount (value * 10 ^ zeros) ≤ digitCount value - 1 + zeros := by
    have := digitCount_pos value
    omega
  have short : value * 10 ^ zeros < 10 ^ (digitCount value - 1) * 10 ^ zeros := by
    rw [← pow_add]
    exact bound.trans_le (Nat.pow_le_pow_right (by norm_num) count)
  have less := Nat.lt_of_mul_lt_mul_right short
  rcases Nat.eq_zero_or_pos (digitCount value - 1) with single | several
  · rw [single, pow_zero] at less
    omega
  · have := (digitCount_le_iff several).mpr less
    omega

end Text

namespace ExactDecimal

/-- The digits of a number stand at no more than so many places in front of the
point and behind it. -/
structure Spans (value : ExactDecimal) (front behind : ℤ) : Prop where
  front_le : Text.digitCount value.coefficient.natAbs - value.scale ≤ front
  behind_le : value.scale ≤ behind

variable {value : ExactDecimal} {front behind : ℤ}

theorem spans_mk {coefficient scale : ℤ} :
    (⟨coefficient, scale⟩ : ExactDecimal).Spans front behind ↔
      Text.digitCount coefficient.natAbs - scale ≤ front ∧ scale ≤ behind :=
  ⟨fun spans => ⟨spans.front_le, spans.behind_le⟩, fun ⟨front, behind⟩ => ⟨front, behind⟩⟩

theorem Spans.mono (spans : value.Spans front behind) {more further : ℤ}
    (atMost : front ≤ more) (noFurther : behind ≤ further) :
    value.Spans more further :=
  ⟨spans.front_le.trans atMost, spans.behind_le.trans noFurther⟩

/-- The last of at least one digit stands where the scale says. -/
theorem Spans.fits (spans : value.Spans front behind) (few : front ≤ 2 ^ 63)
    (near : behind < 2 ^ 63) : value.Fits := by
  have := Text.digitCount_pos value.coefficient.natAbs
  have := spans.front_le
  have := spans.behind_le
  exact fits_iff.mpr (by omega)

end ExactDecimal

namespace Decimal

variable {value left right : Decimal}
  {front behind leftFront leftBehind rightFront rightBehind : ℤ}

/-! ### One operation -/

theorem spans_exact :
    value.exact.Spans front behind ↔
      (value.digitCount : ℤ) - value.scale ≤ front ∧ value.scale ≤ behind :=
  ExactDecimal.spans_mk

theorem spans_strippedExact (spans : value.exact.Spans front behind)
    (frontPos : 1 ≤ front) (behindNonneg : 0 ≤ behind) :
    value.strippedExact.Spans front behind := by
  obtain ⟨frontLe, behindLe⟩ := spans_exact.mp spans
  unfold strippedExact
  split
  next => exact ⟨frontPos, behindNonneg⟩
  next nonzero =>
    obtain ⟨rest, isRest⟩ := value.ten_pow_trailingZeros_dvd_coefficient
    set zeros := trailingZeros value.coefficient.natAbs
    have tenPos : (0 : ℤ) < 10 ^ zeros := by positivity
    have restPos : 0 < rest.natAbs := by
      refine Int.natAbs_pos.mpr fun noRest => nonzero ?_
      rw [noRest, mul_zero] at isRest
      exact beq_iff_eq.mpr isRest
    have fewer : Text.digitCount rest.natAbs + zeros ≤ value.digitCount := by
      have := Text.digitCount_add_le restPos zeros
      rwa [digitCount, isRest, Int.natAbs_mul, Int.natAbs_pow, mul_comm]
    refine ExactDecimal.spans_mk.mpr ?_
    rw [isRest, Int.mul_ediv_cancel_left _ tenPos.ne']
    omega

theorem spans_multiplyExact (isLeft : left.exact.Spans leftFront leftBehind)
    (isRight : right.exact.Spans rightFront rightBehind) (leftPos : 1 ≤ leftFront)
    (rightPos : 1 ≤ rightFront) (leftNonneg : 0 ≤ leftBehind)
    (rightNonneg : 0 ≤ rightBehind) :
    (left.multiplyExact right).Spans (leftFront + rightFront)
      (leftBehind + rightBehind) := by
  unfold multiplyExact
  split
  next =>
    exact (spans_strippedExact isRight rightPos rightNonneg).mono (by omega)
      (by omega)
  split
  next =>
    exact (spans_strippedExact isLeft leftPos leftNonneg).mono (by omega) (by omega)
  next =>
    have digits := Text.digitCount_mul_le left.coefficient.natAbs
      right.coefficient.natAbs
    rw [← Int.natAbs_mul] at digits
    obtain ⟨leftLe, leftBehindLe⟩ := spans_exact.mp isLeft
    obtain ⟨rightLe, rightBehindLe⟩ := spans_exact.mp isRight
    refine ExactDecimal.spans_mk.mpr ?_
    unfold digitCount at leftLe rightLe
    omega

/-- Rounding drops places behind the last digit that is kept, and a carry may take
up one place in front of the first. -/
theorem spans_roundExact (spans : value.exact.Spans front behind) (digits : ℕ)
    (mode : RoundingMode) :
    (value.roundExact digits mode).Spans (front + 1) behind := by
  obtain ⟨frontLe, behindLe⟩ := spans_exact.mp spans
  unfold roundExact
  split
  next => exact spans.mono (by omega) le_rfl
  next rounded =>
    obtain ⟨limited, many⟩ := not_or.mp rounded
    obtain ⟨dropped, isDropped⟩ := Nat.exists_eq_add_of_le (not_le.mp many).le
    dsimp only
    rw [isDropped, Nat.add_sub_cancel_left]
    set negative := decide (value.coefficient < 0)
    set magnitude := mode.quotient negative value.coefficient.natAbs (10 ^ dropped)
      with isMagnitude
    have kept : value.coefficient.natAbs / 10 ^ dropped < 10 ^ digits := by
      refine Nat.div_lt_of_lt_mul ?_
      rw [mul_comm, ← pow_add, ← isDropped]
      exact Text.lt_ten_pow_digitCount _
    have carried : magnitude ≤ value.coefficient.natAbs / 10 ^ dropped + 1 := by
      rw [isMagnitude, RoundingMode.quotient]
      split <;> omega
    have few : Text.digitCount magnitude ≤ digits + 1 := by
      refine (Text.digitCount_le_iff digits.succ_pos).mpr ?_
      have := Nat.pow_pos (n := digits) (show 0 < 10 by norm_num)
      rw [pow_succ]
      omega
    have signed : (if negative = true then -(magnitude : ℤ)
        else magnitude).natAbs = magnitude := by
      split <;> simp
    refine ExactDecimal.spans_mk.mpr ?_
    rw [signed]
    omega

/-! ### Reciprocals -/

namespace LongDivision

/-- Every step appends a digit and moves the scale by one place. -/
theorem develop_bounds {divisor places : ℕ} (digits : ℕ) (division : LongDivision)
    (short : division.rest < divisor) (few : division.quotient < 10 ^ places) :
    (develop divisor digits division).quotient < 10 ^ (places + digits) ∧
      division.scale ≤ (develop divisor digits division).scale ∧
      (develop divisor digits division).scale ≤ division.scale + digits := by
  induction digits generalizing division places with
  | zero => exact ⟨few, le_rfl, (Int.add_zero _).ge⟩
  | succ digits ih =>
      rw [develop]
      split
      next =>
        refine ⟨few.trans_le (Nat.pow_le_pow_right (by norm_num) ?_), le_rfl, ?_⟩ <;>
          omega
      next =>
        have isDigit : division.rest * 10 / divisor < 10 :=
          Nat.div_lt_of_lt_mul (by omega)
        have nextFew : division.quotient * 10 + division.rest * 10 / divisor <
            10 ^ (places + 1) := by
          rw [pow_succ]
          omega
        obtain ⟨quotientFew, scaleLe, leScale⟩ := ih ⟨_, _, division.scale + 1⟩
          (Nat.mod_lt _ (Nat.zero_lt_of_lt short)) nextFew
        rw [Nat.add_right_comm] at quotientFew
        dsimp only at scaleLe leScale
        refine ⟨quotientFew, ?_, ?_⟩ <;> push_cast <;> omega

end LongDivision

theorem leadingPlaces_le (dividend : ℕ) {divisor places : ℕ}
    (enough : divisor ≤ dividend * 10 ^ places) :
    leadingPlaces dividend divisor ≤ places := by
  fun_induction leadingPlaces dividend divisor generalizing places with
  | case1 => exact Nat.zero_le _
  | case2 dividend goesOn ih =>
      cases places with
      | zero => omega
      | succ places =>
          rw [pow_succ', ← mul_assoc] at enough
          exact Nat.succ_le_succ (ih enough)

/-- The reciprocal of a magnitude has at most a hundred digits, or a power of ten
behind a carry. -/
theorem divideMagnitudes_one {divisor : ℕ} (positive : 0 < divisor) (scale : ℤ) :
    Text.digitCount (divideMagnitudes 1 divisor scale).1 ≤ 101 ∧
      scale ≤ (divideMagnitudes 1 divisor scale).2 ∧
      (divideMagnitudes 1 divisor scale).2 ≤
        scale + Text.digitCount divisor + 99 := by
  set places := leadingPlaces 1 divisor with isPlaces
  have fewPlaces : places ≤ Text.digitCount divisor :=
    leadingPlaces_le 1 (by
      rw [one_mul]
      exact (Text.lt_ten_pow_digitCount divisor).le)
  have single : 1 * 10 ^ places / divisor < 10 ^ 1 := by
    refine Nat.div_lt_of_lt_mul ?_
    rw [one_mul]
    rcases Nat.eq_zero_or_pos places with none | some
    · rw [none]
      omega
    · -- One place less would not have been enough.
      have less : 10 ^ (places - 1) < divisor := by
        by_contra enough
        have := leadingPlaces_le 1 ((not_lt.mp enough).trans_eq (one_mul _).symm)
        omega
      calc 10 ^ places = 10 ^ (places - 1) * 10 := by
            rw [← pow_succ, Nat.sub_add_cancel some]
        _ < divisor * 10 ^ 1 := Nat.mul_lt_mul_of_pos_right less (by norm_num)
  have digits := Text.digitCount_pos (1 * 10 ^ places / divisor)
  obtain ⟨few, scaleLe, leScale⟩ := LongDivision.develop_bounds
    (quotientDigits - Text.digitCount (1 * 10 ^ places / divisor))
    ⟨1 * 10 ^ places / divisor, 1 * 10 ^ places % divisor, scale + places⟩
    (Nat.mod_lt _ positive) single
  have atMost : quotientDigits - Text.digitCount (1 * 10 ^ places / divisor) ≤ 99 := by
    unfold quotientDigits
    omega
  have short := few.trans_le
    (Nat.pow_le_pow_right (by norm_num) (Nat.add_le_add_left atMost 1))
  dsimp only at scaleLe leScale
  rw [Text.digitCount_le_iff (by norm_num), divideMagnitudes, ← isPlaces,
    LongDivision.finish]
  split <;> dsimp only <;> omega

theorem spans_reciprocal {power : Decimal} (nonzero : power.coefficient ≠ 0)
    (spans : power.exact.Spans front behind) (frontNonneg : 0 ≤ front)
    (behindNonneg : 0 ≤ behind) :
    (one.divideExact power).Spans (behind + 101) (front + 99) := by
  obtain ⟨frontLe, behindLe⟩ := spans_exact.mp spans
  have digits : 0 < power.digitCount := Text.digitCount_pos _
  have oneScale : one.scale = 0 := rfl
  unfold divideExact
  rw [oneScale]
  split_ifs with trivial same
  · have oneSpans : one.exact.Spans 1 0 := spans_exact.mpr (by decide)
    exact oneSpans.mono (by omega) (by omega)
  · have single : Text.digitCount (1 : ℤ).natAbs = 1 := rfl
    refine ExactDecimal.spans_mk.mpr ?_
    rw [single]
    omega
  · have isOne : one.coefficient.natAbs = 1 := rfl
    have bounds :=
      divideMagnitudes_one (Int.natAbs_pos.mpr nonzero) (0 - power.scale)
    rw [isOne]
    rcases isQuotient : divideMagnitudes 1 power.coefficient.natAbs (0 - power.scale)
      with ⟨magnitude, scale⟩
    rw [isQuotient] at bounds
    have signed :
        (one.coefficient.sign * power.coefficient.sign * magnitude).natAbs =
          magnitude := by
      have positive : one.coefficient.sign = 1 := rfl
      rw [positive, one_mul, Int.natAbs_mul, Int.natAbs_sign_of_ne_zero nonzero,
        one_mul, Int.natAbs_natCast]
    refine ExactDecimal.spans_mk.mpr ?_
    rw [signed]
    unfold digitCount at frontLe
    dsimp only at bounds
    omega

/-! ### On the way to a power -/

/-- The number of digits of a decimal, together with the places by which its scale
moves them. -/
def size (value : Decimal) : ℕ :=
  value.digitCount + value.scale.natAbs

theorem size_pos (value : Decimal) : 0 < value.size :=
  Nat.add_pos_left (Text.digitCount_pos _) _

/-- Squares double their places and the carries into them. -/
def SquareSpans (base : Decimal) (weight : ℕ) (value : Decimal) : Prop :=
  0 < weight ∧ value.exact.Spans (weight * base.size + weight - 1 : ℕ)
    (weight * base.size : ℕ)

/-- A result that is no longer one has up to one more carry for each factor. -/
def ResultSpans (base : Decimal) (done : ℕ) (value : Decimal) : Prop :=
  done = 0 ∧ value = one ∨
    0 < done ∧ value.exact.Spans (done * base.size + 2 * done - 1 : ℕ)
      (done * base.size : ℕ)

section Power

variable {base : Decimal} {done weight count : ℕ} {context : MathContext}

theorem squareSpans_base (base : Decimal) : base.SquareSpans 1 base := by
  refine ⟨one_pos, spans_exact.mpr ?_⟩
  simp only [size, one_mul]
  omega

theorem SquareSpans.weaken (isSquare : base.SquareSpans weight value) :
    base.ResultSpans weight value :=
  .inr ⟨isSquare.1, isSquare.2.mono (by omega) le_rfl⟩

theorem SquareSpans.double (isSquare : base.SquareSpans weight value) :
    (value.multiplyExact value).Spans ((weight + weight) * base.size +
      (weight + weight) - 2 : ℕ) ((weight + weight) * base.size : ℕ) := by
  obtain ⟨positive, spans⟩ := isSquare
  have := Nat.mul_pos positive base.size_pos
  rw [Nat.add_mul]
  refine (spans_multiplyExact spans spans ?_ ?_ ?_ ?_).mono ?_ ?_ <;> omega

/-- A first factor of one strips the other of zeros, which takes up no places. -/
theorem ResultSpans.multiply (isResult : base.ResultSpans done left)
    (isSquare : base.SquareSpans weight right) :
    (left.multiplyExact right).Spans ((done + weight) * base.size +
      2 * (done + weight) - 2 : ℕ) ((done + weight) * base.size : ℕ) := by
  obtain ⟨positive, spans⟩ := isSquare
  have := Nat.mul_pos positive base.size_pos
  rw [Nat.add_mul]
  rcases isResult with ⟨rfl, rfl⟩ | ⟨donePos, resultSpans⟩
  · have stripped : one.multiplyExact right = right.strippedExact := rfl
    rw [stripped]
    refine (spans_strippedExact spans ?_ ?_).mono ?_ ?_ <;> omega
  · have := Nat.mul_pos donePos base.size_pos
    refine (spans_multiplyExact resultSpans spans ?_ ?_ ?_ ?_).mono ?_ ?_ <;> omega

theorem productFits_of_spans (context : MathContext)
    (spans : (left.multiplyExact right).Spans front behind)
    (few : front < 2 ^ 63) (near : behind < 2 ^ 63) :
    context.ProductFits left right ∧
      (context.roundProduct (left.multiply right)).exact.Spans (front + 1)
        behind := by
  have product := spans.fits few.le near
  have isProduct : (left.multiply right).exact = left.multiplyExact right :=
    exact_store product
  have rounds : ((left.multiply right).roundExact context.productDigits
      context.rounding).Spans (front + 1) behind :=
    spans_roundExact (isProduct.symm ▸ spans) _ _
  have rounded := rounds.fits (by omega) near
  refine ⟨⟨product, rounded⟩, ?_⟩
  rwa [MathContext.roundProduct, roundTo, exact_store rounded]

/-! ### Bases and exponents that are not too large -/

section Few

variable (few : count * (base.size + 2) ≤ 2 ^ 62)

include few

theorem places_le (atMost : weight ≤ count) :
    weight * base.size + 2 * weight ≤ 2 ^ 62 := by
  have := (Nat.mul_le_mul_right (base.size + 2) atMost).trans few
  rwa [Nat.mul_add, Nat.mul_comm weight 2] at this

theorem ResultSpans.productFits (atMost : done + weight ≤ count)
    (isResult : base.ResultSpans done left)
    (isSquare : base.SquareSpans weight right) :
    context.ProductFits left right ∧ base.ResultSpans (done + weight)
      (context.roundProduct (left.multiply right)) := by
  have places := places_le few atMost
  have positive : 0 < weight := isSquare.1
  obtain ⟨fits, spans⟩ := productFits_of_spans context (isResult.multiply isSquare)
    (by omega) (by omega)
  exact ⟨fits, .inr ⟨by omega, spans.mono (by omega) le_rfl⟩⟩

theorem SquareSpans.roundProduct (atMost : weight + weight ≤ count)
    (isSquare : base.SquareSpans weight value) :
    base.SquareSpans (weight + weight)
      (context.roundProduct (value.multiply value)) := by
  have places := places_le few atMost
  have positive : 0 < weight := isSquare.1
  obtain ⟨-, spans⟩ := productFits_of_spans context isSquare.double (by omega)
    (by omega)
  exact ⟨by omega, spans.mono (by omega) le_rfl⟩

theorem productsFit_of_size : base.ProductsFit count context := by
  intro pair member
  obtain ⟨done, weight, atMost, isResult, isSquare⟩ :=
    factors_induction base.ResultSpans base.SquareSpans
      (fun atMost isResult isSquare =>
        (isResult.productFits few atMost isSquare).2)
      (fun atMost isSquare => isSquare.roundProduct few atMost)
      SquareSpans.weaken (.inl ⟨rfl, rfl⟩) (squareSpans_base base)
      (by omega : 0 + 1 * count = count) pair member
  exact (isResult.productFits few atMost isSquare).1

theorem resultSpans_naturalPower (context : MathContext) :
    base.ResultSpans count (base.naturalPower count context) := by
  rw [naturalPower_eq]
  exact squaring_induction base.ResultSpans base.SquareSpans (fun _ _ => True)
    (fun atMost _ isResult isSquare =>
      (isResult.productFits few atMost isSquare).2)
    (fun atMost _ isSquare => isSquare.roundProduct few atMost)
    (.inl ⟨rfl, rfl⟩) (squareSpans_base base) (by omega) fun _ _ => trivial

theorem spans_naturalPower (context : MathContext) :
    (base.naturalPower count context).exact.Spans (2 ^ 62 + 1) (2 ^ 62) := by
  have places := places_le few le_rfl
  rcases resultSpans_naturalPower few context with ⟨-, isOne⟩ | ⟨-, spans⟩
  · have oneSpans : one.exact.Spans 1 0 := spans_exact.mpr (by decide)
    rw [isOne]
    exact oneSpans.mono (by norm_num) (by norm_num)
  · exact spans.mono (by omega) (by omega)

/-- The scales of a power fit if the exponent times the size of the base is not too
large. -/
theorem powerFits_of_size : base.PowerFits count context :=
  ⟨productsFit_of_size few, (spans_roundExact (spans_naturalPower few context) _ _).fits
    (by norm_num) (by norm_num)⟩

/-- So do those of a reciprocal. -/
theorem reciprocalFits_of_size
    (nonzero : (base.naturalPower count context).coefficient ≠ 0) :
    base.ReciprocalFits count context := by
  have spans := spans_reciprocal nonzero (spans_naturalPower few context)
    (by norm_num) (by norm_num)
  have quotient := spans.fits (by norm_num) (by norm_num)
  have isQuotient :
      (one.divide (base.naturalPower count context)).exact =
        one.divideExact (base.naturalPower count context) :=
    exact_store quotient
  refine ⟨productsFit_of_size few, quotient, ?_⟩
  exact (spans_roundExact (isQuotient.symm ▸ spans) _ _).fits (by norm_num)
    (by norm_num)

end Few

end Power

end Decimal

end FormulaEngine
