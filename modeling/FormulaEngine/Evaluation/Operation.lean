import FormulaEngine.Evaluation.Script
import FormulaEngine.Number.Reduction

/-!
# Operators on values

Operators first try their operands as numbers, converted to the kind of the
context.  What is left are the negation of truth values, the concatenation of
texts, the order of values that are not numbers, and the algebra of truth
values, where a truth value on either side takes precedence over bits.
-/

namespace FormulaEngine

variable {Label : Type}

/-- The value of a literal; numbers take the kind of the context. -/
def Literal.toValue (kind : NumberKind) :
    Literal → Except NumberError (Value Label)
  | .bool value => .ok (.bool value)
  | .text value => .ok (.text value)
  | .number value => (value.setKind kind).map .number

/-- The operand of a numeric value in a kind of numbers.  Integers are taken as
they are, and other values have none. -/
def Value.operandIn? (kind : NumberKind) (value : Value Label) :
    Except NumberError (Option Operand) :=
  match value with
  | .number numeral => do return some (← numeral.setKind kind).toOperand
  | _ => .ok value.toOperand?

/-- The operands of two values, if both are numeric.  Both are converted in any
case, the left one first. -/
def Value.operandsIn? (kind : NumberKind) (left right : Value Label) :
    Except NumberError (Option (Operand × Operand)) := do
  let left ← left.operandIn? kind
  let right ← right.operandIn? kind
  match left, right with
  | some left, some right => return some (left, right)
  | _, _ => return none

/-- The error of an operator on two values that it has no rule for. -/
def mismatch (symbol : String) (left right : Value Label) : EvalError :=
  .of (.typeMismatch symbol left.type.name (some right.type.name))

/-- The error of an operator on one value that it has no rule for. -/
def unaryMismatch (symbol : String) (operand : Value Label) : EvalError :=
  .of (.typeMismatch symbol operand.type.name none)

namespace Context

/-- Negate a number. -/
def negate (context : Context Label) (operand : Value Label) :
    Except EvalError (Value Label) := do
  let kind := context.kind
  let raw ← (operand.operandIn? kind).mapError NumberError.toEvalError
  match raw with
  | some raw =>
      let negated := (kind.create raw).bind (·.negate kind)
      (negated.map .number).mapError NumberError.toEvalError
  | none => throw (unaryMismatch UnaryOp.negate.symbol operand)

/-- Combine two operands in the kind and the math context of a context. -/
def combine (context : Context Label) (op : ArithmeticOp)
    (left right : Operand) : Except EvalError (Value Label) :=
  ((op.apply left right context.kind context.math).map .number).mapError
    NumberError.toEvalError

/-- The texts of two values, one after the other. -/
def concatenate (context : Context Label) (forest : Forest)
    (left right : Value Label) : Except EvalError (Value Label) := do
  let left ← context.convert forest left .text
  let right ← context.convert forest right .text
  return .text (left.write forest ++ right.write forest)

/-- Apply an arithmetic operator; a text on either side of an addition makes a
concatenation. -/
def arithmetic (context : Context Label) (forest : Forest) (op : BinaryOp)
    (grouped : ArithmeticOp) (left right : Value Label) :
    Except EvalError (Value Label) := do
  let operands ←
    (left.operandsIn? context.kind right).mapError NumberError.toEvalError
  match operands with
  | some (left, right) => context.combine grouped left right
  | none =>
      if op = .add ∧ (left.type = .text ∨ right.type = .text) then
        (context.concatenate forest left right).mapError fun _ =>
          mismatch op.symbol left right
      else throw (mismatch op.symbol left right)

/-- Apply a comparison; values that are not both numbers are compared by the
order of the context. -/
def comparison (context : Context Label) (forest : Forest) (op : BinaryOp)
    (relation : Relation) (left right : Value Label) :
    Except EvalError (Value Label) := do
  let operands ←
    (left.operandsIn? context.kind right).mapError NumberError.toEvalError
  match operands with
  | some (left, right) =>
      ((relation.holds left right).map .bool).mapError NumberError.toEvalError
  | none =>
      match context.order? forest left right with
      | some order => return .bool (relation.test (some order))
      | none => throw (mismatch op.symbol left right)

end Context

/-- Combine two truth values. -/
def ArithmeticOp.onTruth (op : ArithmeticOp) (left right : Bool) : Bool :=
  match op with
  | .and => left && right
  | .or => left || right
  | _ => left != right

/-- Apply a logical operator: bit by bit to two numbers, unless one side is a
truth value, and to the truth of both sides otherwise. -/
def Context.logical (context : Context Label) (machine : Machine Label)
    (op : ArithmeticOp) (left right : Value Label) :
    Run Label (Value Label) := do
  let operands ←
    if left.type = .bool ∨ right.type = .bool then pure none
    else Run.ofNumeric (left.operandsIn? context.kind right)
  match operands with
  | some (left, right) => .ofExcept (context.combine op left right)
  | none => do
      let left ← machine.judge left
      let right ← machine.judge right
      return .bool (op.onTruth left right)

/-- Apply a binary operator to the values of its operands. -/
def Context.binary (context : Context Label) (forest : Forest)
    (machine : Machine Label) (op : BinaryOp) (left right : Value Label) :
    Run Label (Value Label) :=
  match op.group with
  | .arithmetic grouped =>
      .ofExcept (context.arithmetic forest op grouped left right)
  | .comparison relation =>
      .ofExcept (context.comparison forest op relation left right)
  | .logical grouped => context.logical machine grouped left right

/-- Apply a unary operator to the value of its operand. -/
def Context.unary (context : Context Label) (machine : Machine Label)
    (op : UnaryOp) (operand : Value Label) : Run Label (Value Label) :=
  match op with
  | .negate => .ofExcept (context.negate operand)
  | .not => do
      let truth ← machine.judge operand
      return .bool (!truth)

end FormulaEngine
