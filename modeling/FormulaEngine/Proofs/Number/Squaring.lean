import FormulaEngine.Number.Power
import FormulaEngine.Proofs.Decimal.Division

/-!
# Squaring

Every round of squaring keeps the exponent that the result and the square still
make up.  So a law between decimals and exponents that the rounded products keep
holds of the power, and of the two factors of every product on the way.

A product is meant to be exact and is then rounded.  Both lower or add up scales, and
each is only what it is meant to be if the new scale fits its word.
-/

namespace FormulaEngine

namespace Decimal

theorem mul_eq_double_mul_half (weight exponent : ℕ) :
    weight * exponent =
      (weight + weight) * (exponent / 2) + weight * (exponent % 2) := by
  nth_rewrite 1 [← Nat.div_add_mod exponent 2]
  ring

/-- The pairs of factors that squaring multiplies, in the order in which it does;
`step` rounds each product. -/
def factors (step : Decimal → Decimal) (exponent : ℕ)
    (result square : Decimal) : List (Decimal × Decimal) :=
  if exponent = 0 then []
  else
    let multiplied := if exponent % 2 = 1 then [(result, square)] else []
    let squared := if exponent / 2 = 0 then [] else [(square, square)]
    let result :=
      if exponent % 2 = 1 then step (result.multiply square) else result
    let square :=
      if exponent / 2 = 0 then square else step (square.multiply square)
    multiplied ++ squared ++ factors step (exponent / 2) result square
termination_by exponent

section Squaring

variable {step : Decimal → Decimal} {Holds Squares : ℕ → Decimal → Prop}
  {total exponent done weight : ℕ} {result square : Decimal}

/-- One round keeps the exponent that the two decimals still make up.  The last
square is not formed: its exponent may exceed the total. -/
theorem squaring_round
    (multiply : exponent % 2 = 1 → done + weight ≤ total →
      Holds (done + weight) (step (result.multiply square)))
    (double : exponent / 2 ≠ 0 → weight + weight ≤ total →
      Squares (weight + weight) (step (square.multiply square)))
    (resultHolds : Holds done result) (squareHolds : Squares weight square)
    (invariant : done + weight * exponent = total) :
    ∃ next nextWeight,
      Holds next (if exponent % 2 = 1 then step (result.multiply square)
        else result) ∧
      Squares nextWeight (if exponent / 2 = 0 then square
        else step (square.multiply square)) ∧
      next + nextWeight * (exponent / 2) = total := by
  have parts := mul_eq_double_mul_half weight exponent
  obtain ⟨next, nextHolds, rest⟩ : ∃ next,
      Holds next (if exponent % 2 = 1 then step (result.multiply square)
        else result) ∧
        next + (weight + weight) * (exponent / 2) = total := by
    split
    next odd =>
      rw [odd, Nat.mul_one] at parts
      exact ⟨done + weight, multiply odd (by omega), by omega⟩
    next even =>
      have isEven : exponent % 2 = 0 := by omega
      rw [isEven, Nat.mul_zero] at parts
      exact ⟨done, resultHolds, by omega⟩
  by_cases last : exponent / 2 = 0
  · refine ⟨next, weight, nextHolds, ?_, ?_⟩
    · rwa [if_pos last]
    · rw [last, Nat.mul_zero] at rest ⊢
      exact rest
  · have atMost : weight + weight ≤ (weight + weight) * (exponent / 2) :=
      Nat.le_mul_of_pos_right _ (Nat.pos_of_ne_zero last)
    refine ⟨next, weight + weight, nextHolds, ?_, rest⟩
    rw [if_neg last]
    exact double last (by omega)

/-- What products keep holds of the power that squaring ends with; the squares on
the way may keep more.  Of the products only those that are formed are asked. -/
theorem squaring_induction (Holds Squares : ℕ → Decimal → Prop)
    (Forms : Decimal → Decimal → Prop)
    (multiply : ∀ {i j left right}, i + j ≤ total → Forms left right →
      Holds i left → Squares j right → Holds (i + j) (step (left.multiply right)))
    (double : ∀ {i value}, i + i ≤ total → Forms value value →
      Squares i value → Squares (i + i) (step (value.multiply value)))
    (resultHolds : Holds done result) (squareHolds : Squares weight square)
    (invariant : done + weight * exponent = total)
    (formed : ∀ pair ∈ factors step exponent result square,
      Forms pair.1 pair.2) :
    Holds total (squaring step exponent result square) := by
  induction exponent using Nat.strong_induction_on
    generalizing done weight result square with
  | _ exponent ih =>
      rw [squaring]
      split
      next finished =>
        rw [finished, Nat.mul_zero, Nat.add_zero] at invariant
        rwa [invariant] at resultHolds
      next goesOn =>
        rw [factors, if_neg goesOn] at formed
        simp only [List.forall_mem_append] at formed
        obtain ⟨⟨multiplied, squared⟩, rest⟩ := formed
        obtain ⟨next, nextWeight, nextHolds, nextSquares, nextInvariant⟩ :=
          squaring_round
            (fun odd atMost => multiply atMost
              (multiplied (result, square) (by simp [odd])) resultHolds squareHolds)
            (fun more atMost => double atMost
              (squared (square, square) (by simp [more])) squareHolds)
            resultHolds squareHolds invariant
        exact ih _ (by omega) nextHolds nextSquares nextInvariant rest

/-- What products keep holds of all pairs of factors, whose exponents never add up
to more than that of the power. -/
theorem factors_induction (Holds Squares : ℕ → Decimal → Prop)
    (multiply : ∀ {i j left right}, i + j ≤ total → Holds i left →
      Squares j right → Holds (i + j) (step (left.multiply right)))
    (double : ∀ {i value}, i + i ≤ total → Squares i value →
      Squares (i + i) (step (value.multiply value)))
    (weaken : ∀ {i value}, Squares i value → Holds i value)
    (resultHolds : Holds done result) (squareHolds : Squares weight square)
    (invariant : done + weight * exponent = total) :
    ∀ pair ∈ factors step exponent result square, ∃ i j, i + j ≤ total ∧
      Holds i pair.1 ∧ Squares j pair.2 := by
  induction exponent using Nat.strong_induction_on
    generalizing done weight result square with
  | _ exponent ih =>
      rw [factors]
      split
      next => exact fun _ => nofun
      next goesOn =>
        obtain ⟨next, nextWeight, nextHolds, nextSquares, nextInvariant⟩ :=
          squaring_round (fun _ atMost => multiply atMost resultHolds squareHolds)
            (fun _ atMost => double atMost squareHolds) resultHolds squareHolds
            invariant
        simp only [List.forall_mem_append]
        refine ⟨⟨fun pair member => ?_, fun pair member => ?_⟩,
          ih _ (by omega) nextHolds nextSquares nextInvariant⟩
        · have odd : exponent % 2 = 1 := by
            by_contra even
            simp [even] at member
          obtain rfl : pair = (result, square) := by simpa [odd] using member
          refine ⟨done, weight, ?_, resultHolds, squareHolds⟩
          have : weight ≤ weight * exponent :=
            Nat.le_mul_of_pos_right _ (Nat.pos_of_ne_zero goesOn)
          omega
        · have more : exponent / 2 ≠ 0 := by
            intro last
            simp [last] at member
          obtain rfl : pair = (square, square) := by simpa [more] using member
          refine ⟨weight, weight, ?_, weaken squareHolds, squareHolds⟩
          have : weight * 2 ≤ weight * exponent :=
            Nat.mul_le_mul_left _ (by omega)
          omega

end Squaring

end Decimal

namespace MathContext

/-- The digits that products on the way to a power keep; none where they are not
rounded. -/
def productDigits (context : MathContext) : ℕ :=
  if context.isUnlimited then 0 else context.working.precision.toNat

/-- Round a product on the way to a power. -/
def roundProduct (context : MathContext) (value : Decimal) : Decimal :=
  value.roundTo context.productDigits context.rounding

theorem product_step_eq (context : MathContext) :
    (if context.isUnlimited then id else context.working.round) =
      context.roundProduct := by
  funext value
  unfold roundProduct productDigits
  split
  · simp [Decimal.roundTo, Decimal.roundExact]
  · rfl

/-- The digits that products keep are a sum of words. -/
theorem productDigits_eq_mod {context : MathContext}
    (limited : context.isUnlimited = false) :
    context.productDigits = (context.precision.toNat + 4) % 2 ^ 64 := by
  have sum : context.productDigits =
      (context.precision + guardDigits).toNat := by
    simp [productDigits, working, digits, limited]
  rw [sum, UInt64.toNat_add]
  rfl

/-- Products keep the digits of the budget and the guard digits, if a budget has
room for both. -/
theorem productDigits_of_limited {context : MathContext}
    (limited : context.isUnlimited = false)
    (room : context.precision.toNat + 4 < 2 ^ 64) :
    context.productDigits = context.precision.toNat + 4 :=
  (productDigits_eq_mod limited).trans (Nat.mod_eq_of_lt room)

/-- The scales of a product, before and after it is rounded, fit their word. -/
structure ProductFits (context : MathContext) (left right : Decimal) : Prop where
  product : (left.multiplyExact right).Fits
  rounded : ((left.multiply right).roundExact context.productDigits
    context.rounding).Fits

theorem ProductFits.toRat_roundProduct {context : MathContext}
    {left right : Decimal} (fits : context.ProductFits left right) :
    (context.roundProduct (left.multiply right)).toRat =
      roundSignificant context.productDigits context.rounding
        (left.toRat * right.toRat) := by
  rw [roundProduct, Decimal.toRat_roundTo fits.rounded,
    Decimal.toRat_multiply fits.product]

end MathContext

namespace Decimal

/-- The scales of all products on the way to a power fit their word. -/
def ProductsFit (base : Decimal) (count : ℕ) (context : MathContext) : Prop :=
  ∀ pair ∈ factors context.roundProduct count one base,
    context.ProductFits pair.1 pair.2

/-- The scales on the way to a natural power, and that of the rounded power, fit
their word. -/
structure PowerFits (base : Decimal) (count : ℕ) (context : MathContext) :
    Prop where
  products : base.ProductsFit count context
  result : (context.roundExact (base.naturalPower count context)).Fits

/-- The scales on the way to a negative power, of the reciprocal and of the rounded
reciprocal fit their word. -/
structure ReciprocalFits (base : Decimal) (count : ℕ) (context : MathContext) :
    Prop where
  products : base.ProductsFit count context
  quotient : (one.divideExact (base.naturalPower count context)).Fits
  result : ((one.divide (base.naturalPower count context)).roundExact
    context.digits.toNat context.rounding).Fits

section NaturalPower

variable {base : Decimal} {count : ℕ} {context : MathContext}

theorem naturalPower_eq (base : Decimal) (count : ℕ) (context : MathContext) :
    base.naturalPower count context =
      squaring context.roundProduct count one base := by
  rw [naturalPower, context.product_step_eq]

/-- A law that all products keep holds of a power. -/
theorem naturalPower_induction (Holds : ℕ → Decimal → Prop) (atZero : Holds 0 one)
    (atOne : Holds 1 base)
    (multiply : ∀ {i j left right}, Holds i left → Holds j right →
      Holds (i + j) (context.roundProduct (left.multiply right))) :
    Holds count (base.naturalPower count context) := by
  rw [naturalPower_eq]
  exact squaring_induction Holds Holds (fun _ _ => True) (fun _ _ => multiply)
    (fun _ _ holds => multiply holds holds) atZero atOne (by omega)
    fun _ _ => trivial

/-- Whatever becomes of scales, only zero has powers that are zero. -/
theorem naturalPower_ne_zero (nonzero : base.toRat ≠ 0) (count : ℕ)
    (context : MathContext) : (base.naturalPower count context).toRat ≠ 0 := by
  apply naturalPower_induction fun _ value => value.toRat ≠ 0
  · exact fun isZero => one_ne_zero (toRat_eq_zero.mp isZero)
  · exact nonzero
  · intro _ _ left right leftNonzero rightNonzero
    have product : (left.multiply right).toRat ≠ 0 := by
      rw [multiply, Ne, ExactDecimal.toRat_store_eq_zero, toRat_multiplyExact]
      exact mul_ne_zero leftNonzero rightNonzero
    rw [MathContext.roundProduct, roundTo, Ne, ExactDecimal.toRat_store_eq_zero,
      toRat_roundExact]
    exact roundSignificant_ne_zero product

/-- A law that products keep while their scales fit holds of a power if they do. -/
theorem ProductsFit.induction (fits : base.ProductsFit count context)
    (Holds : ℕ → Decimal → Prop) (atZero : Holds 0 one) (atOne : Holds 1 base)
    (multiply : ∀ {i j left right}, i + j ≤ count →
      context.ProductFits left right → Holds i left → Holds j right →
      Holds (i + j) (context.roundProduct (left.multiply right))) :
    Holds count (base.naturalPower count context) := by
  rw [naturalPower_eq]
  exact squaring_induction Holds Holds context.ProductFits multiply
    (fun atMost fits holds => multiply atMost fits holds holds) atZero atOne
    (by omega) fits

end NaturalPower

end Decimal

end FormulaEngine
