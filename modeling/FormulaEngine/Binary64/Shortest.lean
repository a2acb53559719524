import FormulaEngine.Binary64.Basic

/-!
# The shortest digits of a float

The decimal digits that stand for a float are the fewest that read back as it,
and of those the ones nearest to its value; a tie goes up.  A decimal reads back
as the float exactly when it lies in the interval of values that round to it,
whose ends count if and only if the mantissa is even.  The search runs over
finer and finer decimal grids and tests the two grid points around the value.
-/

namespace FormulaEngine

namespace Binary64

/-- The interval of values that round to a positive float, in units of
`numerator / denominator`: the lower end, the float itself, the upper end. -/
structure Neighbourhood where
  lower : Nat
  middle : Nat
  upper : Nat
  numerator : Nat
  denominator : Nat
  closed : Bool
  deriving Repr

/-- The interval of values that round to `mantissa · 2 ^ exponent`.  Below a
power of two the floats lie twice as dense. -/
def Neighbourhood.of (mantissa : Nat) (exponent : Int) : Neighbourhood where
  lower :=
    if mantissa = leadingBit ∧ -1074 < exponent then 4 * mantissa - 1
    else 4 * mantissa - 2
  middle := 4 * mantissa
  upper := 4 * mantissa + 2
  numerator := 2 ^ (exponent - 2).toNat
  denominator := 2 ^ (2 - exponent).toNat
  closed := mantissa % 2 == 0

/-- Test whether `coefficient · 10 ^ exponent` lies in the interval. -/
def Neighbourhood.contains (neighbourhood : Neighbourhood) (coefficient : Nat)
    (exponent : Int) : Bool :=
  let point :=
    coefficient * 10 ^ exponent.toNat * neighbourhood.denominator
  let unit := neighbourhood.numerator * 10 ^ (-exponent).toNat
  if neighbourhood.closed then
    decide (neighbourhood.lower * unit ≤ point) &&
      decide (point ≤ neighbourhood.upper * unit)
  else
    decide (neighbourhood.lower * unit < point) &&
      decide (point < neighbourhood.upper * unit)

/-- The point of the grid of multiples of `10 ^ exponent` that stands for the
float, if either of the two points around its value does: the nearer of two. -/
def Neighbourhood.gridPoint? (neighbourhood : Neighbourhood)
    (exponent : Int) : Option Nat :=
  let value := neighbourhood.middle * neighbourhood.numerator *
    10 ^ (-exponent).toNat
  let step := neighbourhood.denominator * 10 ^ exponent.toNat
  let below := value / step
  let belowHit := decide (0 < below) && neighbourhood.contains below exponent
  let aboveHit := neighbourhood.contains (below + 1) exponent
  if belowHit && (!aboveHit || decide (2 * (value % step) < step)) then
    some below
  else if aboveHit then some (below + 1)
  else none

/-- The first grid with a hit, among `grids` ones from `exponent` downwards. -/
def Neighbourhood.search (neighbourhood : Neighbourhood) :
    (grids : Nat) → (exponent : Int) → Nat × Int
  | 0, exponent => (0, exponent)
  | grids + 1, exponent =>
      match neighbourhood.gridPoint? exponent with
      | some coefficient => (coefficient, exponent)
      | none => neighbourhood.search grids (exponent - 1)

/-- The shortest digits of `mantissa · 2 ^ exponent`, as a coefficient and a
power of ten.  The search starts at a power of ten above the value, at most two
grids too high, and seventeen digits always suffice. -/
def shortestDigits (mantissa : Nat) (exponent : Int) : Nat × Int :=
  if mantissa = 0 then (0, 0)
  else
    let bits := (Nat.log2 mantissa : Int) + 1 + exponent
    (Neighbourhood.of mantissa exponent).search 22 (bits * 30103 / 100000 + 1)

end Binary64

end FormulaEngine
