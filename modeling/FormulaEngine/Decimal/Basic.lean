import FormulaEngine.Text.Positional

/-!
# Decimal numbers

A decimal is an integer coefficient with a scale: `coefficient · 10 ^ (-scale)`.
Several pairs stand for one value, and which of them an operation yields shows
in the written form, so every operation says what scale its result has.  Order
and the test for zero look at the value alone.

Coefficients may have any length, but a scale is a word of 64 bits.  The operations
are given with scales of any size first; what they yield is then stored, and a
scale that does not fit its word wraps around.
-/

namespace FormulaEngine

/-- A decimal number `coefficient · 10 ^ (-scale)`, with the scale in a word. -/
structure Decimal where
  coefficient : Int
  scaleWord : Int64
  deriving DecidableEq, Repr

/-- A number `coefficient · 10 ^ (-scale)` before its scale is stored in a word. -/
structure ExactDecimal where
  coefficient : Int
  scale : Int
  deriving DecidableEq, Repr

namespace Decimal

/-- The scale of a decimal. -/
def scale (value : Decimal) : Int :=
  value.scaleWord.toInt

/-- Test whether a scale fits its word. -/
def scaleFits (scale : Int) : Bool :=
  decide (Int64.minValue.toInt ≤ scale) && decide (scale ≤ Int64.maxValue.toInt)

/-- A decimal as it was before its scale was stored. -/
def exact (value : Decimal) : ExactDecimal :=
  ⟨value.coefficient, value.scale⟩

end Decimal

namespace ExactDecimal

/-- The scale of a number fits its word. -/
def Fits (value : ExactDecimal) : Prop :=
  Decimal.scaleFits value.scale = true

instance (value : ExactDecimal) : Decidable value.Fits :=
  inferInstanceAs (Decidable (_ = _))

/-- Store the scale of a number.  A scale that does not fit wraps around. -/
def store (value : ExactDecimal) : Decimal :=
  ⟨value.coefficient, Int64.ofInt value.scale⟩

@[simp]
theorem store_coefficient (value : ExactDecimal) :
    value.store.coefficient = value.coefficient :=
  rfl

end ExactDecimal

namespace Decimal

/-- An integer, written with scale zero. -/
def ofInt (value : Int) : Decimal :=
  ⟨value, 0⟩

/-- Zero with scale zero. -/
def zero : Decimal :=
  ofInt 0

/-- One with scale zero. -/
def one : Decimal :=
  ofInt 1

/-- Test whether a decimal is zero, whatever its scale. -/
def isZero (value : Decimal) : Bool :=
  value.coefficient == 0

/-- The number of digits of the coefficient; zero has one digit. -/
def digitCount (value : Decimal) : Nat :=
  Text.digitCount value.coefficient.natAbs

/-- The coefficient that a decimal has at a scale which is not below its own.
Zero is zero at every scale, however far apart the two are. -/
def coefficientAt (value : Decimal) (scale : Int) : Int :=
  if value.coefficient = 0 then 0
  else value.coefficient * 10 ^ (scale - value.scale).toNat

theorem coefficientAt_eq (value : Decimal) (scale : Int) :
    value.coefficientAt scale =
      value.coefficient * 10 ^ (scale - value.scale).toNat := by
  unfold coefficientAt
  split <;> simp_all

/-- Negate a decimal and keep its scale. -/
def negate (value : Decimal) : Decimal :=
  ⟨-value.coefficient, value.scaleWord⟩

/-- Append `places` zeros to the coefficient and keep the value. -/
def widen (value : Decimal) (places : Nat) : Decimal :=
  ExactDecimal.store ⟨value.coefficient * 10 ^ places, value.scale + places⟩

/-- The most zeros that the addition of a zero appends. -/
def zeroPlaces : Nat :=
  15

/-- A decimal plus a zero of some scale: the decimal itself, widened toward the
scale of the zero as far as an addition of zero widens. -/
def plusZero (value : Decimal) (scale : Int) : Decimal :=
  value.widen (min (scale - value.scale).toNat zeroPlaces)

/-- Add exactly.  The result has the larger scale; adding a zero widens the
other operand only. -/
def add (left right : Decimal) : Decimal :=
  if right.isZero then left.plusZero right.scale
  else if left.isZero then right.plusZero left.scale
  else
    let scale := max left.scale right.scale
    ExactDecimal.store
      ⟨left.coefficientAt scale + right.coefficientAt scale, scale⟩

/-- Subtract exactly, at the larger scale. -/
def subtract (left right : Decimal) : Decimal :=
  let scale := max left.scale right.scale
  ExactDecimal.store
    ⟨left.coefficientAt scale - right.coefficientAt scale, scale⟩

/-- The number of zeros at the end of a natural number; zero has none. -/
def trailingZeros (value : Nat) : Nat :=
  if value = 0 then 0
  else if value % 10 = 0 then trailingZeros (value / 10) + 1
  else 0
termination_by value

/-- Erase all trailing zeros of the coefficient and keep the value; the scale of
an integral value may become negative, and zero gets scale zero. -/
def strippedExact (value : Decimal) : ExactDecimal :=
  if value.isZero then zero.exact
  else
    let zeros := trailingZeros value.coefficient.natAbs
    ⟨value.coefficient / 10 ^ zeros, value.scale - zeros⟩

/-- A decimal without the trailing zeros of its coefficient. -/
def stripped (value : Decimal) : Decimal :=
  value.strippedExact.store

/-- The largest scale at which a coefficient is recognised as one. -/
def largestUnitScale : Int :=
  38

/-- Test whether a decimal is one, written with at most 38 places. -/
def isUnit (value : Decimal) : Bool :=
  decide (0 ≤ value.scale) && decide (value.scale ≤ largestUnitScale) &&
    value.coefficient == 10 ^ value.scale.toNat

/-- Multiply exactly.  The scales add up, but a factor of one strips the other
factor of its trailing zeros. -/
def multiplyExact (left right : Decimal) : ExactDecimal :=
  if left.isUnit then right.strippedExact
  else if right.isUnit then left.strippedExact
  else ⟨left.coefficient * right.coefficient, left.scale + right.scale⟩

/-- Multiply two decimals. -/
def multiply (left right : Decimal) : Decimal :=
  (left.multiplyExact right).store

/-- The remainder of a truncated division, at the larger scale.  It has the sign
of the dividend. -/
def remainder (left right : Decimal) : Decimal :=
  let scale := max left.scale right.scale
  ExactDecimal.store
    ⟨Int.tmod (left.coefficientAt scale) (right.coefficientAt scale), scale⟩

/-- Compare two nonzero decimals without their signs: first by the position of
the leading digit, then digit by digit. -/
def compareMagnitudes (left right : Decimal) : Ordering :=
  (compare ((left.digitCount : Int) - left.scale)
    ((right.digitCount : Int) - right.scale)).then
    (compare (left.coefficientAt (max left.scale right.scale)).natAbs
      (right.coefficientAt (max left.scale right.scale)).natAbs)

/-- Order two decimals by their values. -/
def order (left right : Decimal) : Ordering :=
  (compare left.coefficient.sign right.coefficient.sign).then
    (if left.isZero then .eq
    else if left.coefficient < 0 then compareMagnitudes right left
    else compareMagnitudes left right)

/-- Test whether a decimal has no fractional part. -/
def isIntegral (value : Decimal) : Bool :=
  value.isZero || decide (value.scale ≤ 0) ||
    (decide (value.scale < value.digitCount) &&
      value.coefficient % 10 ^ value.scale.toNat == 0)

/-- The integer part, truncated toward zero. -/
def truncate (value : Decimal) : Int :=
  if value.scale ≤ 0 then value.coefficientAt 0
  else if (value.digitCount : Int) ≤ value.scale then 0
  else Int.tdiv value.coefficient (10 ^ value.scale.toNat)

end Decimal

end FormulaEngine
