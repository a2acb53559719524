import FormulaEngine.Decimal.Basic

/-!
# Decimal division

A quotient is developed digit by digit until it is exact or has one hundred
digits; in the latter case the next digit decides whether the last one goes up.
Two equal coefficients have the quotient one, and a divisor that is recognised
as one leaves the dividend as it is.
-/

namespace FormulaEngine

namespace Decimal

/-- The number of digits after which the development of a quotient stops. -/
def quotientDigits : Nat :=
  100

/-- A division under way: the quotient so far, what remains of the dividend, and
the scale of the quotient. -/
structure LongDivision where
  quotient : Nat
  rest : Nat
  scale : Int
  deriving DecidableEq, Repr

/-- Append up to `digits` further digits; stop early when nothing remains. -/
def LongDivision.develop (divisor : Nat) :
    (digits : Nat) → LongDivision → LongDivision
  | 0, division => division
  | digits + 1, division =>
      if division.rest = 0 then division
      else
        LongDivision.develop divisor digits
          { quotient := division.quotient * 10 + division.rest * 10 / divisor
            rest := division.rest * 10 % divisor
            scale := division.scale + 1 }

/-- Finish a division: what remains is rounded off by the next digit. -/
def LongDivision.finish (divisor : Nat) (division : LongDivision) :
    Nat × Int :=
  if 5 ≤ division.rest * 10 / divisor then
    (division.quotient + 1, division.scale)
  else (division.quotient, division.scale)

/-- The least number of zeros that make a positive dividend at least as large
as the divisor. -/
def leadingPlaces (dividend divisor : Nat) : Nat :=
  if dividend = 0 ∨ divisor ≤ dividend then 0
  else leadingPlaces (dividend * 10) divisor + 1
termination_by divisor - dividend

/-- Divide two positive magnitudes at a scale for an undeveloped quotient. -/
def divideMagnitudes (dividend divisor : Nat) (scale : Int) : Nat × Int :=
  let places := leadingPlaces dividend divisor
  let shifted := dividend * 10 ^ places
  let quotient := shifted / divisor
  LongDivision.finish divisor
    (LongDivision.develop divisor
      (quotientDigits - Text.digitCount quotient)
      { quotient, rest := shifted % divisor, scale := scale + places })

/-- Divide by a decimal that is not zero. -/
def divideExact (left right : Decimal) : ExactDecimal :=
  if left.isZero || right.isUnit then left.exact
  else if left.coefficient = right.coefficient then
    ⟨1, left.scale - right.scale⟩
  else
    let (magnitude, scale) :=
      divideMagnitudes left.coefficient.natAbs right.coefficient.natAbs
        (left.scale - right.scale)
    ⟨left.coefficient.sign * right.coefficient.sign * magnitude, scale⟩

/-- The quotient of two decimals. -/
def divide (left right : Decimal) : Decimal :=
  (left.divideExact right).store

end Decimal

end FormulaEngine
