import FormulaEngine.Number.Operand
import FormulaEngine.Text.Blank

/-!
# Numerals

Numbers that are stored in trees and returned by evaluations come in two kinds,
floats and decimals.  Order and equality of numerals look at the values: a float
is compared to a decimal through the decimal of its shortest digits, infinities
lie beyond every decimal, and a NaN compares to nothing, itself included.
-/

namespace FormulaEngine

/-- The two kinds of numbers that an evaluation may produce. -/
inductive NumberKind
  | floating
  | arbitraryPrecision
  deriving DecidableEq, Repr, Inhabited

/-- A number tagged with its kind. -/
inductive Numeral
  | floating (value : Float)
  | decimal (value : Decimal)
  deriving DecidableEq

namespace NumberKind

def name : NumberKind → String
  | floating => "floating"
  | arbitraryPrecision => "arbitrary-precision"

/-- Read the name of a kind or one of its aliases, in any ASCII letter case and
with blanks around it. -/
def read (text : String) : Except NumberError NumberKind :=
  let name := (Text.trim text).map Char.toLower
  if ["floating", "double", "f64"].contains name then .ok floating
  else if ["arbitrary-precision", "arbitrary_precision", "big-decimal",
      "bigdecimal", "decimal"].contains name then .ok arbitraryPrecision
  else .error (.unknownKind text)

/-- Wrap an operand in a kind.  Only a float that is not finite has no decimal
counterpart. -/
def create (kind : NumberKind) (operand : Operand) :
    Except NumberError Numeral :=
  match kind with
  | floating => .ok (.floating operand.toFloat)
  | arbitraryPrecision => operand.toDecimal.map .decimal

/-- Zero of a kind. -/
def zero : NumberKind → Numeral
  | floating => .floating 0.0
  | arbitraryPrecision => .decimal Decimal.zero

/-- One of a kind. -/
def one : NumberKind → Numeral
  | floating => .floating 1.0
  | arbitraryPrecision => .decimal Decimal.one

end NumberKind

namespace Numeral

/-- The kind of a numeral. -/
def kind : Numeral → NumberKind
  | floating _ => .floating
  | decimal _ => .arbitraryPrecision

/-- The operand that a numeral brings to a numeric step. -/
def toOperand : Numeral → Operand
  | floating value => .float value
  | decimal value => .bigDecimal value

def write (numeral : Numeral) : String :=
  numeral.toOperand.write

/-- Convert a numeral to a kind; one of that kind stays as it is. -/
def setKind (numeral : Numeral) (kind : NumberKind) :
    Except NumberError Numeral :=
  if numeral.kind = kind then .ok numeral else kind.create numeral.toOperand

theorem setKind_of_kind {numeral : Numeral} {kind : NumberKind}
    (isOfKind : numeral.kind = kind) : numeral.setKind kind = .ok numeral :=
  if_pos isOfKind

def isZero (numeral : Numeral) : Bool :=
  numeral.toOperand.isZero

/-- Test whether a numeral is finite and has no fractional part. -/
def isIntegral : Numeral → Bool
  | floating value => Binary64.isIntegral value
  | decimal value => value.isIntegral

/-- Negate a numeral and convert the result to a kind. -/
def negate (numeral : Numeral) (kind : NumberKind) :
    Except NumberError Numeral :=
  match numeral with
  | floating value => (floating (-value)).setKind kind
  | decimal value => (decimal value.negate).setKind kind

/-- Compare a float to a decimal. -/
def compareFloatToDecimal? (float : Float) (decimal : Decimal) :
    Option Ordering :=
  match Binary64.parts float with
  | .nan => none
  | .infinite negative => some (if negative then .lt else .gt)
  | .finite .. => (Decimal.ofFloat? float).map (·.order decimal)

/-- Compare two numerals by value. -/
def compare? : Numeral → Numeral → Option Ordering
  | floating left, floating right => Binary64.compare? left right
  | decimal left, decimal right => some (left.order right)
  | floating left, decimal right => compareFloatToDecimal? left right
  | decimal left, floating right =>
      (compareFloatToDecimal? right left).map Ordering.swap

/-- Test whether two numerals have one value. -/
def isEqual (left right : Numeral) : Bool :=
  left.compare? right == some .eq

end Numeral

end FormulaEngine
