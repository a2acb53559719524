import FormulaEngine.Formula.Literal
import FormulaEngine.Formula.Operator
import FormulaEngine.Formula.Parameter

/-!
# Shapes and trees

The shape of a node is what it holds besides its children.  Every shape but the
call fixes the number of children.  A tree is a shape over trees; two trees are
alike when they have the same form with agreeing shapes at every place.
-/

namespace FormulaEngine

/-- What a node holds besides its children. -/
inductive Shape
  | value (literal : Literal)
  | reference (name : Reference)
  | unary (op : UnaryOp)
  | binary (op : BinaryOp)
  | call (function : FunctionName)
  | lambda (parameters : List Parameter)
  deriving DecidableEq

namespace Shape

/-- The number of children, where the shape fixes it. -/
def arity : Shape → Option Nat
  | value _ | reference _ => some 0
  | unary _ | lambda _ => some 1
  | binary _ => some 2
  | call _ => none

/-- Name the sort of a shape. -/
def label : Shape → String
  | value _ => "value"
  | reference _ => "reference"
  | unary _ => "unary"
  | binary _ => "binary"
  | call _ => "call"
  | lambda _ => "lambda"

/-- Test whether two shapes agree: literals by value, all else exactly. -/
def agrees : Shape → Shape → Bool
  | value left, value right => left.agrees right
  | left, right => decide (left = right)

/-- Test whether a number of children fits a shape. -/
def admits (shape : Shape) (count : Nat) : Bool :=
  match shape.arity with
  | some expected => expected == count
  | none => true

end Shape

/-- A formula as a finite tree. -/
inductive Tree
  | node (shape : Shape) (children : List Tree)

namespace Tree

/-- The shape at the root. -/
def shape : Tree → Shape
  | node shape _ => shape

/-- The trees below the root. -/
def children : Tree → List Tree
  | node _ children => children

mutual

/-- Test whether two trees are alike. -/
def isAlike : Tree → Tree → Bool
  | node leftShape leftChildren, node rightShape rightChildren =>
      leftShape.agrees rightShape && areAlike leftChildren rightChildren

/-- Test whether two lists of trees are alike, tree by tree. -/
def areAlike : List Tree → List Tree → Bool
  | [], [] => true
  | left :: lefts, right :: rights =>
      left.isAlike right && areAlike lefts rights
  | _, _ => false

end

end Tree

end FormulaEngine
