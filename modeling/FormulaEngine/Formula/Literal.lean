import FormulaEngine.Number.Inspection
import FormulaEngine.Text.Quoted

/-!
# Literals

The constants of formulas.  Two literals agree when they are of one sort and
their contents do; numbers agree by value, so a NaN does not agree with itself.
-/

namespace FormulaEngine

/-- A constant. -/
inductive Literal
  | bool (value : Bool)
  | text (value : String)
  | number (value : Numeral)
  deriving DecidableEq

def writeBool (value : Bool) : String :=
  if value then "true" else "false"

namespace Literal

/-- Write a literal; texts are quoted. -/
def write : Literal → String
  | bool value => writeBool value
  | text value => Text.quoted value
  | number value => value.write

def inspect : Literal → String
  | bool value => Text.wrapped "Bool" (writeBool value)
  | text value => Text.wrapped "Text" (Text.quoted value)
  | number value => Text.wrapped "Number" value.inspect

def agrees : Literal → Literal → Bool
  | bool left, bool right => left == right
  | text left, text right => left == right
  | number left, number right => left.isEqual right
  | _, _ => false

end Literal

end FormulaEngine
