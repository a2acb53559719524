import FormulaEngine.Decimal.Basic
import FormulaEngine.Text.Integer

/-!
# Written decimals

A decimal is written positionally unless its point would stand too far from its
digits: more than five zeros between point and digits, or more than fifteen
zeros behind the digits, give an exponent.  Trailing zeros are kept, and zero
is written `0` at every scale.  Reading admits grouped digits around an optional
point and a plain integer exponent.
-/

namespace FormulaEngine

namespace Decimal

/-- The most zeros written between the point and the first digit. -/
def leadingZeroLimit : Int :=
  5

/-- The most zeros written behind the digits of an integral decimal. -/
def trailingZeroLimit : Int :=
  15

/-- Write a positive magnitude of a scale. -/
def writeMagnitude (magnitude : Nat) (scale : Int) : List Char :=
  let digits := Nat.toDigits 10 magnitude
  if leadingZeroLimit < scale - digits.length then
    let fraction := digits.drop 1
    digits.take 1 ++ (if fraction = [] then [] else '.' :: fraction) ++
      'E' :: (Text.writeInt ((digits.length : Int) - 1 - scale)).toList
  else if trailingZeroLimit < -scale then
    digits ++ 'e' :: '+' :: (Text.writeInt (-scale)).toList
  else Text.positional magnitude (-scale)

def write (value : Decimal) : String :=
  if value.isZero then "0"
  else
    let magnitude := writeMagnitude value.coefficient.natAbs value.scale
    String.ofList
      (if value.coefficient < 0 then '-' :: magnitude else magnitude)

/-- Split digits at the first point: the digits on both sides of it, and the
number of places behind it.  A point at the very end is dropped. -/
def splitPoint (characters : List Char) : List Char × Nat :=
  match characters.dropWhile (· ≠ '.') with
  | [] => (characters, 0)
  | _ :: places =>
      (characters.takeWhile (· ≠ '.') ++ places,
        places.countP (· ≠ '_'))

def read? (characters : List Char) : Option Decimal :=
  let isMark := fun character => character == 'e' || character == 'E'
  let exponent? :=
    match characters.dropWhile (!isMark ·) with
    | [] => some 0
    | _ :: rest => Text.readInt? rest
  let (digits, places) := splitPoint (characters.takeWhile (!isMark ·))
  match exponent?, Text.readGroupedInt? digits with
  | some exponent, some coefficient =>
      let value := ExactDecimal.mk coefficient (places - exponent)
      if value.Fits then some value.store else none
  | _, _ => none

end Decimal

end FormulaEngine
