import FormulaEngine.Binary64.Shortest
import FormulaEngine.Text.Integer

/-!
# Written floats

A float is written with its shortest digits in positional notation, whatever its
size, without a point when it is integral.  Reading admits an optional sign,
digits with an optional point, an optional exponent, and the names of the
infinities and of the value that is no number in any letter case.
-/

namespace FormulaEngine

namespace Binary64

/-- Write a float in positional notation. -/
def write (value : Float) : String :=
  match parts value with
  | .nan => "NaN"
  | .infinite negative => if negative then "-inf" else "inf"
  | .finite negative mantissa exponent =>
      let (coefficient, power) := shortestDigits mantissa exponent
      let digits := Text.positional coefficient power
      String.ofList (if negative then '-' :: digits else digits)

/-- Read digits with an optional point as a coefficient and the number of
places after the point; one side of the point may be empty. -/
def readCoefficient? (characters : List Char) : Option (Nat × Nat) :=
  let whole := characters.takeWhile Char.isDigit
  let places :=
    match characters.dropWhile Char.isDigit with
    | [] => some []
    | '.' :: rest => if rest.all Char.isDigit then some rest else none
    | _ => none
  places.bind fun places =>
    (Text.readDigits? (whole ++ places)).map (·, places.length)

/-- Read an unsigned decimal number with an optional exponent. -/
def readMagnitude? (characters : List Char) : Option Float :=
  let isMark := fun character => character == 'e' || character == 'E'
  let exponent? :=
    match characters.dropWhile (!isMark ·) with
    | [] => some 0
    | _ :: rest => Text.readInt? rest
  exponent?.bind fun exponent =>
    (readCoefficient? (characters.takeWhile (!isMark ·))).map
      fun (coefficient, places) => ofScientific coefficient (exponent - places)

def read? (characters : List Char) : Option Float :=
  let (negative, rest) := Text.splitSign characters
  let name := String.ofList (rest.map Char.toLower)
  let magnitude? :=
    if name = "inf" ∨ name = "infinity" then some infinity
    else if name = "nan" then some nan
    else readMagnitude? rest
  magnitude?.map (withSign negative)

end Binary64

end FormulaEngine
