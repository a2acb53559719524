import FormulaEngine.Number.Power
import FormulaEngine.Number.TwosComplement

/-!
# Arithmetic operators

Each operator is given once per representation.  Integers of 64 bits wrap, but
their powers are big integers; big integers and decimals divide by zero with a
failure, floats do not.  Decimal results are rounded to the math context, and
bit operations act on the integer parts.
-/

namespace FormulaEngine

/-- The operators whose result is a number. -/
inductive ArithmeticOp
  | add
  | subtract
  | multiply
  | divide
  | modulo
  | power
  | and
  | or
  | xor
  deriving DecidableEq, Repr

namespace ArithmeticOp

/-- The symbol of an operator. -/
def symbol : ArithmeticOp → String
  | add => "+"
  | subtract => "-"
  | multiply => "*"
  | divide => "/"
  | modulo => "%"
  | power => "**"
  | and => "&"
  | or => "|"
  | xor => "^"

/-- The name under which an operator reports failures. -/
def label : ArithmeticOp → String
  | add => "add"
  | subtract => "subtract"
  | multiply => "multiply"
  | divide => "divide"
  | modulo => "modulo"
  | power => powerLabel
  | and => "and"
  | or => "or"
  | xor => "xor"

def isBitwise : ArithmeticOp → Bool
  | and | or | xor => true
  | _ => false

/-- The failure of an operator that divides by zero. -/
def byZero (op : ArithmeticOp) : Except NumberError Operand :=
  .error (.divisionByZero op.label)

/-- Combine two integers of 64 bits. -/
def onIntegers (op : ArithmeticOp) (left right : Int64)
    (context : MathContext) : Except NumberError Operand :=
  match op with
  | add => .ok (.integer (left + right))
  | subtract => .ok (.integer (left - right))
  | multiply => .ok (.integer (left * right))
  | divide => if right = 0 then op.byZero else .ok (.integer (left / right))
  | modulo => if right = 0 then op.byZero else .ok (.integer (left % right))
  | power =>
      (integerPower left.toInt right.toInt context).map .bigInteger
  | and => .ok (.integer (left &&& right))
  | or => .ok (.integer (left ||| right))
  | xor => .ok (.integer (left ^^^ right))

/-- Combine two big integers. -/
def onBigIntegers (op : ArithmeticOp) (left right : Int)
    (context : MathContext) : Except NumberError Operand :=
  match op with
  | add => .ok (.bigInteger (left + right))
  | subtract => .ok (.bigInteger (left - right))
  | multiply => .ok (.bigInteger (left * right))
  | divide =>
      if right = 0 then op.byZero else .ok (.bigInteger (left.tdiv right))
  | modulo =>
      if right = 0 then op.byZero else .ok (.bigInteger (left.tmod right))
  | power => (integerPower left right context).map .bigInteger
  | and => .ok (.bigInteger (TwosComplement.and left right))
  | or => .ok (.bigInteger (TwosComplement.or left right))
  | xor => .ok (.bigInteger (TwosComplement.xor left right))

/-- Combine the integer parts of two operands bit by bit. -/
def onIntegerParts (op : ArithmeticOp) (left right : Operand)
    (context : MathContext) : Except NumberError Operand := do
  let left ← left.toBigInteger
  let right ← right.toBigInteger
  op.onBigIntegers left right context

/-- Combine two floats. -/
def onFloats (op : ArithmeticOp) (left right : Float)
    (context : MathContext) : Except NumberError Operand :=
  match op with
  | add => .ok (.float (left + right))
  | subtract => .ok (.float (left - right))
  | multiply => .ok (.float (left * right))
  | divide => .ok (.float (left / right))
  | modulo => .ok (.float (Binary64.remainder left right))
  | power => .ok (.float (left.pow right))
  | and | or | xor =>
      op.onIntegerParts (.float left) (.float right) context

/-- Combine two decimals. -/
def onDecimals (op : ArithmeticOp) (left right : Decimal)
    (context : MathContext) : Except NumberError Operand :=
  match op with
  | add => .ok (.bigDecimal (context.round (left.add right)))
  | subtract => .ok (.bigDecimal (context.round (left.subtract right)))
  | multiply => .ok (.bigDecimal (context.round (left.multiply right)))
  | divide =>
      if right.isZero then op.byZero
      else .ok (.bigDecimal (context.roundInexact (left.divide right)))
  | modulo =>
      if right.isZero then op.byZero
      else .ok (.bigDecimal (context.round (left.remainder right)))
  | power => (left.power right context).map .bigDecimal
  | and | or | xor =>
      op.onIntegerParts (.bigDecimal left) (.bigDecimal right) context

end ArithmeticOp

end FormulaEngine
