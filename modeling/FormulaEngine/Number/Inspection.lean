import FormulaEngine.Number.MathContext
import FormulaEngine.Number.Numeral
import FormulaEngine.Text.Inspection

/-!
# Inspection of numbers

For inspection a float shows a point even when it is integral, and an exponent
when it is very large or very small.  A decimal shows its sign, its scale and
the words of its coefficient.
-/

namespace FormulaEngine

namespace Binary64

/-- Write digits with an exponent: the first digit, a point before the others,
and the power of ten of the first. -/
def withExponent (coefficient : Nat) (power : Int) : List Char :=
  let digits := Nat.toDigits 10 coefficient
  let fraction := digits.drop 1
  digits.take 1 ++ (if fraction = [] then [] else '.' :: fraction) ++
    'e' :: (Text.writeInt (power + fraction.length)).toList

/-- Show the digits of a magnitude for inspection.  Positional notation serves
from one ten-thousandth up to ten to the sixteenth. -/
def inspectMagnitude (coefficient : Nat) (power : Int) : List Char :=
  let leading := (Text.digitCount coefficient : Int) + power
  if coefficient ≠ 0 ∧ (leading < -3 ∨ 16 < leading) then
    withExponent coefficient power
  else
    Text.positional coefficient power ++ (if 0 ≤ power then ['.', '0'] else [])

def inspect (value : Float) : String :=
  match parts value with
  | .finite negative mantissa exponent =>
      let (coefficient, power) := shortestDigits mantissa exponent
      let digits := inspectMagnitude coefficient power
      String.ofList (if negative then '-' :: digits else digits)
  | _ => write value

end Binary64

namespace Decimal

/-- The words of 64 bits of a natural number, lowest first. -/
def words (value : Nat) : List Nat :=
  if value = 0 then [] else value % UInt64.size :: words (value / UInt64.size)
termination_by value
decreasing_by exact Nat.div_lt_self (by omega) (by decide)

def inspect (value : Decimal) : String :=
  let sign :=
    if value.isZero then "NoSign"
    else if value.coefficient < 0 then "Minus"
    else "Plus"
  Text.wrapped "BigDecimal"
    ("sign=" ++ sign ++ ", scale=" ++ Text.writeInt value.scale ++
      ", digits=" ++
      Text.bracketed ((words value.coefficient.natAbs).map Nat.repr))

end Decimal

def Numeral.inspect : Numeral → String
  | .floating value => Text.wrapped "Floating" (Binary64.inspect value)
  | .decimal value => Text.wrapped "ArbitraryPrecision" value.inspect

def NumberKind.inspect : NumberKind → String
  | .floating => "Floating"
  | .arbitraryPrecision => "ArbitraryPrecision"

def RoundingMode.inspect : RoundingMode → String
  | .up => "Up"
  | .down => "Down"
  | .ceiling => "Ceiling"
  | .floor => "Floor"
  | .halfUp => "HalfUp"
  | .halfDown => "HalfDown"
  | .halfEven => "HalfEven"

def MathContext.inspect (context : MathContext) : String :=
  Text.record "MathContext"
    [("precision", context.precision.toNat.repr),
      ("rounding", context.rounding.inspect)]

end FormulaEngine
