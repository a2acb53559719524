import FormulaEngine.Binary64.Text
import FormulaEngine.Decimal.Binary64
import FormulaEngine.Decimal.Text
import FormulaEngine.Number.Error

/-!
# Operands

The operand of a numeric step comes in one of four representations.  Two
operands meet in a common one: the higher in rank, except that a float and a
big integer meet as decimals, where neither loses digits.  Conversions to a
lower rank truncate toward zero.
-/

namespace FormulaEngine

/-- The ways to represent an operand, in increasing rank. -/
inductive Representation
  | integer
  | float
  | bigInteger
  | bigDecimal
  deriving DecidableEq, Repr

namespace Representation

/-- The rank of a representation. -/
def rank : Representation → Nat
  | integer => 0
  | float => 1
  | bigInteger => 2
  | bigDecimal => 3

def name : Representation → String
  | integer => "integer"
  | float => "float"
  | bigInteger => "big integer"
  | bigDecimal => "big decimal"

/-- The representation in which two operands meet. -/
def common : Representation → Representation → Representation
  | float, bigInteger => bigDecimal
  | bigInteger, float => bigDecimal
  | left, right => if left.rank ≤ right.rank then right else left

/-- Test whether one representation ranks below another. -/
def isBelow (left right : Representation) : Bool :=
  decide (left.rank < right.rank)

theorem common_comm (left right : Representation) :
    left.common right = right.common left := by
  cases left <;> cases right <;> rfl

end Representation

/-- The operand of a numeric step. -/
inductive Operand
  | integer (value : Int64)
  | float (value : Float)
  | bigInteger (value : Int)
  | bigDecimal (value : Decimal)
  deriving DecidableEq

namespace Operand

/-- The representation of an operand. -/
def representation : Operand → Representation
  | integer _ => .integer
  | float _ => .float
  | bigInteger _ => .bigInteger
  | bigDecimal _ => .bigDecimal

def write : Operand → String
  | integer value => Text.writeInt value.toInt
  | float value => Binary64.write value
  | bigInteger value => Text.writeInt value
  | bigDecimal value => value.write

/-- The nearest float; a value beyond the range becomes infinite. -/
def toFloat : Operand → Float
  | integer value => Binary64.ofInt value.toInt
  | float value => value
  | bigInteger value => Binary64.ofInt value
  | bigDecimal value => value.toFloat

/-- The decimal that a float stands for: the one with its shortest digits. -/
def decimalOfFloat (value : Float) : Except NumberError Decimal :=
  match Decimal.ofFloat? value with
  | some decimal => .ok decimal
  | none =>
      .error (.notRepresentable (Binary64.write value)
        Representation.bigDecimal.name)

/-- The decimal of the same value; only a float that is not finite has none. -/
def toDecimal : Operand → Except NumberError Decimal
  | integer value => .ok (Decimal.ofInt value.toInt)
  | float value => decimalOfFloat value
  | bigInteger value => .ok (Decimal.ofInt value)
  | bigDecimal value => .ok value

/-- The integer part, truncated toward zero; only a float that is not finite has
none. -/
def toBigInteger : Operand → Except NumberError Int
  | integer value => .ok value.toInt
  | float value =>
      match Binary64.truncate? value with
      | some truncated => .ok truncated
      | none =>
          .error (.notRepresentable (Binary64.write value)
            Representation.bigInteger.name)
  | bigInteger value => .ok value
  | bigDecimal value => .ok value.truncate

/-- The integer part in 64 bits. -/
def toInteger (operand : Operand) : Except NumberError Int64 :=
  match operand with
  | integer value => .ok value
  | _ => do
      let truncated ← operand.toBigInteger
      match Text.narrowInt? truncated with
      | some value => .ok value
      | none =>
          .error (.notRepresentable operand.write Representation.integer.name)

/-- Convert an operand to a representation; a lower rank truncates. -/
def promote (operand : Operand) (target : Representation) :
    Except NumberError Operand :=
  if operand.representation = target then .ok operand
  else
    match target with
    | .integer => operand.toInteger.map integer
    | .float => .ok (float operand.toFloat)
    | .bigInteger => operand.toBigInteger.map bigInteger
    | .bigDecimal => operand.toDecimal.map bigDecimal

/-- Test whether an operand is zero; the negative zero of floats is. -/
def isZero : Operand → Bool
  | integer value => value == 0
  | float value => value == 0.0
  | bigInteger value => value == 0
  | bigDecimal value => value.isZero

end Operand

end FormulaEngine
