import FormulaEngine.Arena.Forest

/-!
# Expressions

An expression is a node of an arena together with the place where it was
reached: the ancestors on the way to the root, each with the index of the child
that leads on.  One node reached at two places makes two expressions.
-/

namespace FormulaEngine

/-- An ancestor on the way to the root, and which of its children leads back. -/
structure Step where
  node : NodeId
  index : Nat
  deriving DecidableEq, Repr

/-- A node at a place of a tree; the path starts at the parent and ends at the
root. -/
structure Expression where
  arena : Nat
  node : NodeId
  path : List Step
  deriving DecidableEq, Repr, Inhabited

/-- What a node is, over its children of some type. -/
inductive Node (Child : Type)
  | value (literal : Literal)
  | reference (name : Reference)
  | unary (op : UnaryOp) (operand : Child)
  | binary (op : BinaryOp) (left right : Child)
  | call (function : FunctionName) (arguments : List Child)
  | lambda (parameters : List Parameter) (body : Child)

namespace Node

variable {Child : Type}

/-- The shape of a node. -/
def shape : Node Child → Shape
  | value literal => .value literal
  | reference name => .reference name
  | unary op _ => .unary op
  | binary op _ _ => .binary op
  | call function _ => .call function
  | lambda parameters _ => .lambda parameters

/-- The children of a node, left to right. -/
def children : Node Child → List Child
  | value _ | reference _ => []
  | unary _ operand => [operand]
  | binary _ left right => [left, right]
  | call _ arguments => arguments
  | lambda _ body => [body]

end Node

namespace Expression

/-- A node as the root of its own tree. -/
def atRoot (arena : Nat) (node : NodeId) : Expression :=
  ⟨arena, node, []⟩

/-- The expression of a child, placed below this one. -/
def below (expression : Expression) (index : Nat) (node : NodeId) :
    Expression :=
  ⟨expression.arena, node, ⟨expression.node, index⟩ :: expression.path⟩

/-- The expression one step up, if there is one. -/
def parent? (expression : Expression) : Option Expression :=
  match expression.path with
  | [] => none
  | step :: path => some ⟨expression.arena, step.node, path⟩

/-- The index among the children of the parent, if there is one. -/
def index? (expression : Expression) : Option Nat :=
  expression.path.head?.map Step.index

/-- The root of the tree in which an expression is placed. -/
def root (expression : Expression) : Expression :=
  match expression.path.getLast? with
  | none => expression
  | some step => atRoot expression.arena step.node

def isRoot (expression : Expression) : Bool :=
  expression.path.isEmpty

/-- The same node as the root of its own tree. -/
def withoutParent (expression : Expression) : Expression :=
  atRoot expression.arena expression.node

/-- The indexes that lead from the root to an expression. -/
def indexPath (expression : Expression) : List Nat :=
  (expression.path.map Step.index).reverse

@[simp]
theorem parent?_below (expression : Expression) (index : Nat) (node : NodeId) :
    (expression.below index node).parent? = some expression :=
  rfl

@[simp]
theorem index?_below (expression : Expression) (index : Nat) (node : NodeId) :
    (expression.below index node).index? = some index :=
  rfl

@[simp]
theorem root_below (expression : Expression) (index : Nat) (node : NodeId) :
    (expression.below index node).root = expression.root := by
  cases expression with
  | mk arena own path =>
      cases path <;> simp [below, root, List.getLast?_cons]
      rfl

/-- Test whether two expressions are one node of one arena. -/
def isSameNode (left right : Expression) : Bool :=
  left.node == right.node && left.arena == right.arena

end Expression

namespace Forest

/-- The stored node of an expression. -/
def stored (forest : Forest) (expression : Expression) : StoredNode :=
  (forest.arena expression.arena).stored expression.node

/-- The shape of an expression. -/
def shape (forest : Forest) (expression : Expression) : Shape :=
  (forest.arena expression.arena).shape expression.node

/-- The children of an expression, placed below it. -/
def children (forest : Forest) (expression : Expression) : List Expression :=
  ((forest.arena expression.arena).children expression.node).mapIdx
    expression.below

/-- What an expression is, over its children placed below it. -/
def node (forest : Forest) (expression : Expression) : Node Expression :=
  let arena := forest.arena expression.arena
  match arena.stored expression.node with
  | .value literal => .value literal
  | .reference name => .reference name
  | .unary op operand => .unary op (expression.below 0 operand)
  | .binary op left right =>
      .binary op (expression.below 0 left) (expression.below 1 right)
  | .call function arguments =>
      .call function
        ((arguments.slice arena.childLists).mapIdx expression.below)
  | .lambda parameters body =>
      .lambda (parameters.slice arena.parameters) (expression.below 0 body)

/-- The name of a reference, and nothing for any other expression. -/
def referenceName? (forest : Forest) (expression : Expression) :
    Option Reference :=
  match forest.stored expression with
  | .reference name => some name
  | _ => none

/-- The tree of an expression. -/
def tree (forest : Forest) (expression : Expression) : Tree :=
  (forest.arena expression.arena).tree expression.node

/-- Follow child indexes from an expression, as far as they lead. -/
def descend? (forest : Forest) (expression : Expression) :
    (indexes : List Nat) → Option Expression
  | [] => some expression
  | index :: indexes =>
      match (forest.children expression)[index]? with
      | some child => forest.descend? child indexes
      | none => none

def inspect (forest : Forest) (expression : Expression) : String :=
  Text.record "Expression"
    [("id", expression.node.inspect),
      ("kind", (forest.stored expression).inspect),
      ("depth", expression.path.length.repr)]

end Forest

end FormulaEngine
