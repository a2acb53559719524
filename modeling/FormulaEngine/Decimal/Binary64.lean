import FormulaEngine.Binary64.Shortest
import FormulaEngine.Decimal.Basic

/-!
# Decimals and floats

A finite float becomes the decimal of its shortest digits.  A decimal becomes a
float in one of three ways: an integral coefficient of scale zero is rounded
directly; digits that a float cannot hold are dropped in groups first; a
negative scale is applied as a power of ten in floating arithmetic, and a
positive one is rounded as a decimal numeral.
-/

namespace FormulaEngine

namespace Decimal

/-- The decimal with the shortest digits of a finite float. -/
def ofFloat? (value : Float) : Option Decimal :=
  match Binary64.parts value with
  | .finite negative mantissa exponent =>
      let (coefficient, power) := Binary64.shortestDigits mantissa exponent
      let magnitude : Int := coefficient * 10 ^ power.toNat
      some (ExactDecimal.store
        ⟨if negative then -magnitude else magnitude, (-power).toNat⟩)
  | _ => none

/-- The number of binary digits of a natural number; zero has none. -/
def bitCount (value : Nat) : Nat :=
  if value = 0 then 0 else Nat.log2 value + 1

/-- The decimal logarithm of two, times ten to the twentieth, rounded down. -/
def scaledLogTwo : Nat :=
  30102999566398119521

/-- The number of groups of nineteen digits that are dropped from a magnitude;
about twenty-five digits are left. -/
def surplusGroups (magnitude : Nat) : Nat :=
  let digits :=
    (bitCount magnitude + 1) * scaledLogTwo / 100000000000000000000
  (digits - 25) / 19

/-- Test whether a scale and its negative fit 32 bits. -/
def scaleIsShort (scale : Int) : Bool :=
  decide (-0x80000000 < scale) && decide (scale < 0x80000000)

/-- The float that a positive magnitude of a nonzero scale becomes. -/
def magnitudeToFloat (magnitude : Nat) (scale : Int) : Float :=
  let groups := surplusGroups magnitude
  let kept := magnitude / 10 ^ (19 * groups)
  let scale := scale - 19 * groups
  if !scaleIsShort scale then Binary64.infinity
  else if scale ≤ 0 then
    Binary64.ofScientific kept 0 * Binary64.powerOfTen (-scale).toNat
  else Binary64.ofScientific kept (-scale)

/-- The float that a decimal becomes.  A value beyond the range becomes
infinite, and so does every value whose scale does not fit 32 bits. -/
def toFloat (value : Decimal) : Float :=
  if value.isZero then 0.0
  else if value.scale = 0 then Binary64.ofInt value.coefficient
  else
    Binary64.withSign (decide (value.coefficient < 0))
      (magnitudeToFloat value.coefficient.natAbs value.scale)

end Decimal

end FormulaEngine
