import FormulaEngine.Number.Arithmetic
import FormulaEngine.Number.Relation

/-!
# Reduction of two operands

Two operands of one representation are combined directly; all others are first
converted to the representation in which they meet.  A reduction fails if such a
conversion does, or if the combination does.
-/

namespace FormulaEngine

/-- A way to combine two operands of one representation. -/
structure Combination (Result : Type) where
  onIntegers : Int64 → Int64 → Except NumberError Result
  onFloats : Float → Float → Except NumberError Result
  onBigIntegers : Int → Int → Except NumberError Result
  onDecimals : Decimal → Decimal → Except NumberError Result

/-- Two operands of one representation. -/
inductive OperandPair
  | integers (left right : Int64)
  | floats (left right : Float)
  | bigIntegers (left right : Int)
  | decimals (left right : Decimal)

namespace OperandPair

/-- Bring two operands to the representation in which they meet; the left one is
converted first. -/
def meet (left right : Operand) : Except NumberError OperandPair :=
  match left.representation.common right.representation with
  | .integer => do
      let left ← left.toInteger
      let right ← right.toInteger
      return integers left right
  | .float => return floats left.toFloat right.toFloat
  | .bigInteger => do
      let left ← left.toBigInteger
      let right ← right.toBigInteger
      return bigIntegers left right
  | .bigDecimal => do
      let left ← left.toDecimal
      let right ← right.toDecimal
      return decimals left right

end OperandPair

namespace Combination

variable {Result : Type}

/-- Combine a pair of operands. -/
def onPair (combination : Combination Result) :
    OperandPair → Except NumberError Result
  | .integers left right => combination.onIntegers left right
  | .floats left right => combination.onFloats left right
  | .bigIntegers left right => combination.onBigIntegers left right
  | .decimals left right => combination.onDecimals left right

/-- Combine two operands of any representations. -/
def reduce (combination : Combination Result) (left right : Operand) :
    Except NumberError Result := do
  combination.onPair (← OperandPair.meet left right)

end Combination

/-- The combination of an arithmetic operator. -/
def ArithmeticOp.combination (op : ArithmeticOp) (context : MathContext) :
    Combination Operand where
  onIntegers := (op.onIntegers · · context)
  onFloats := (op.onFloats · · context)
  onBigIntegers := (op.onBigIntegers · · context)
  onDecimals := (op.onDecimals · · context)

/-- The combination of a relation, which never fails and looks at the values
only. -/
def Relation.combination (relation : Relation) : Combination Bool where
  onIntegers left right :=
    .ok (relation.test (some (compare left.toInt right.toInt)))
  onFloats left right := .ok (relation.test (Binary64.compare? left right))
  onBigIntegers left right := .ok (relation.test (some (compare left right)))
  onDecimals left right := .ok (relation.test (some (left.order right)))

/-- Combine two operands by an arithmetic operator. -/
def ArithmeticOp.reduce (op : ArithmeticOp) (left right : Operand)
    (context : MathContext) : Except NumberError Operand :=
  (op.combination context).reduce left right

/-- Combine two operands by an arithmetic operator and wrap the result in a
kind. -/
def ArithmeticOp.apply (op : ArithmeticOp) (left right : Operand)
    (kind : NumberKind) (context : MathContext) :
    Except NumberError Numeral := do
  kind.create (← op.reduce left right context)

/-- Test a relation on two operands. -/
def Relation.holds (relation : Relation) (left right : Operand) :
    Except NumberError Bool :=
  relation.combination.reduce left right

end FormulaEngine
