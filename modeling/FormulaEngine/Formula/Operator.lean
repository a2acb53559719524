import FormulaEngine.Number.Arithmetic
import FormulaEngine.Number.Relation

/-!
# Operators

The operators of formulas.  Each binary operator belongs to a group that says
how its operands are combined.
-/

namespace FormulaEngine

/-- The binary operators. -/
inductive BinaryOp
  | add
  | subtract
  | multiply
  | divide
  | modulo
  | power
  | eq
  | ne
  | gt
  | ge
  | lt
  | le
  | and
  | or
  | xor
  deriving DecidableEq, Repr

/-- The way in which a binary operator combines its operands: arithmetic on
numbers, a comparison, or the algebra of truth values and bits. -/
inductive OperatorGroup
  | arithmetic (op : ArithmeticOp)
  | comparison (relation : Relation)
  | logical (op : ArithmeticOp)
  deriving DecidableEq, Repr

/-- The unary operators. -/
inductive UnaryOp
  | negate
  | not
  deriving DecidableEq, Repr

namespace BinaryOp

/-- The operators by name. -/
def catalogue : List (String × BinaryOp) :=
  [("add", add), ("subtract", subtract), ("multiply", multiply),
    ("divide", divide), ("modulo", modulo), ("power", power), ("eq", eq),
    ("ne", ne), ("gt", gt), ("ge", ge), ("lt", lt), ("le", le), ("and", and),
    ("or", or), ("xor", xor)]

/-- The group of an operator. -/
def group : BinaryOp → OperatorGroup
  | add => .arithmetic .add
  | subtract => .arithmetic .subtract
  | multiply => .arithmetic .multiply
  | divide => .arithmetic .divide
  | modulo => .arithmetic .modulo
  | power => .arithmetic .power
  | eq => .comparison .eq
  | ne => .comparison .ne
  | gt => .comparison .gt
  | ge => .comparison .ge
  | lt => .comparison .lt
  | le => .comparison .le
  | and => .logical .and
  | or => .logical .or
  | xor => .logical .xor

/-- The symbol of an operator; the logical ones are words. -/
def symbol (op : BinaryOp) : String :=
  match op.group with
  | .arithmetic grouped => grouped.symbol
  | .comparison relation => relation.symbol
  | .logical grouped => grouped.label

def inspect : BinaryOp → String
  | add => "Add"
  | subtract => "Subtract"
  | multiply => "Multiply"
  | divide => "Divide"
  | modulo => "Modulo"
  | power => "Power"
  | eq => "Eq"
  | ne => "Ne"
  | gt => "Gt"
  | ge => "Ge"
  | lt => "Lt"
  | le => "Le"
  | and => "And"
  | or => "Or"
  | xor => "Xor"

end BinaryOp

namespace UnaryOp

/-- The operators by name. -/
def catalogue : List (String × UnaryOp) :=
  [("negate", negate), ("not", not)]

/-- The symbol of an operator. -/
def symbol : UnaryOp → String
  | negate => "-"
  | not => "!"

def inspect : UnaryOp → String
  | negate => "Negate"
  | not => "Not"

end UnaryOp

end FormulaEngine
