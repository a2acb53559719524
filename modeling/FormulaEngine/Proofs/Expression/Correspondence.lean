import FormulaEngine.Proofs.Expression.Placement
import Mathlib.Data.List.Forall2

/-!
# Nodes that correspond

What holds of a tree is read off its nodes one at a time: a property of all
shapes of a tree holds of the shape of its root and of the trees below it.  Two
nodes correspond when they are of one shape and their children are related one to
one.  Expressions with the same tree have corresponding nodes, in whatever arenas
they lie and whatever they share.
-/

namespace FormulaEngine

namespace Tree

/-- Every shape in a tree has a property. -/
inductive All (holds : Shape → Prop) : Tree → Prop
  | node {shape : Shape} {children : List Tree} (root : holds shape)
      (below : ∀ child ∈ children, All holds child) : All holds (node shape children)

theorem all_node {holds : Shape → Prop} {shape : Shape} {children : List Tree} :
    (node shape children).All holds ↔
      holds shape ∧ ∀ child ∈ children, child.All holds :=
  ⟨fun ⟨root, below⟩ => ⟨root, below⟩, fun ⟨root, below⟩ => ⟨root, below⟩⟩

theorem All.imp {holds weaker : Shape → Prop} {tree : Tree}
    (all : tree.All holds) (follows : ∀ shape, holds shape → weaker shape) :
    tree.All weaker := by
  induction all with
  | node root below ih => exact .node (follows _ root) ih

theorem All.and {first second : Shape → Prop} {tree : Tree}
    (all : tree.All first) (other : tree.All second) :
    tree.All fun shape => first shape ∧ second shape := by
  induction all with
  | node root below ih =>
      obtain ⟨otherRoot, otherBelow⟩ := all_node.mp other
      exact .node ⟨root, otherRoot⟩ fun child isChild =>
        ih child isChild (otherBelow child isChild)

end Tree

namespace Node

/-- Two nodes are of one shape, and their children are related one to one. -/
inductive Corresponds {First Second : Type} (related : First → Second → Prop) :
    Node First → Node Second → Prop
  | value (literal : Literal) :
      Corresponds related (.value literal) (.value literal)
  | reference (name : Reference) :
      Corresponds related (.reference name) (.reference name)
  | unary (op : UnaryOp) {operand : First} {other : Second}
      (below : related operand other) :
      Corresponds related (.unary op operand) (.unary op other)
  | binary (op : BinaryOp) {left right : First} {otherLeft otherRight : Second}
      (leftBelow : related left otherLeft)
      (rightBelow : related right otherRight) :
      Corresponds related (.binary op left right)
        (.binary op otherLeft otherRight)
  | call (function : FunctionName) {arguments : List First}
      {others : List Second} (below : List.Forall₂ related arguments others) :
      Corresponds related (.call function arguments) (.call function others)
  | lambda (parameters : List Parameter) {body : First} {other : Second}
      (below : related body other) :
      Corresponds related (.lambda parameters body) (.lambda parameters other)

theorem corresponds_of_shape {First Second : Type}
    {related : First → Second → Prop} {first : Node First}
    {second : Node Second} (shape : first.shape = second.shape)
    (below : List.Forall₂ related first.children second.children) :
    first.Corresponds related second := by
  cases first <;> cases second <;> simp only [Node.shape, reduceCtorEq] at shape
  case value => cases shape; exact .value _
  case reference => cases shape; exact .reference _
  case unary =>
    cases shape
    exact .unary _ (List.forall₂_cons.mp below).1
  case binary =>
    cases shape
    obtain ⟨left, rest⟩ := List.forall₂_cons.mp below
    exact .binary _ left (List.forall₂_cons.mp rest).1
  case call => cases shape; exact .call _ below
  case lambda =>
    cases shape
    exact .lambda _ (List.forall₂_cons.mp below).1

/-- Nodes of one shape over the same children are the same. -/
theorem eq_of_shape {Child : Type} {first second : Node Child}
    (shape : first.shape = second.shape)
    (children : first.children = second.children) : first = second := by
  have corresponds : first.Corresponds (fun child image => child = image)
      second := by
    apply corresponds_of_shape shape
    rw [children, List.forall₂_eq_eq_eq]
  cases corresponds with
  | call name below =>
      rw [List.forall₂_eq_eq_eq] at below
      rw [below]
  | _ => subst_vars; rfl

end Node

namespace Forest

variable {forest other : Forest} {expression placed : Expression}

theorem shape_node (forest : Forest) (expression : Expression) :
    (forest.node expression).shape = forest.shape expression := by
  simp only [node, shape, Arena.shape]
  cases (forest.arena expression.arena).stored expression.node <;> rfl

theorem referenceName?_eq (forest : Forest) (expression : Expression) :
    forest.referenceName? expression =
      match forest.node expression with
      | .reference name => some name
      | _ => none := by
  simp only [referenceName?, node, stored]
  cases (forest.arena expression.arena).stored expression.node <;> rfl

theorem referenceName?_eq_some_iff {name : Reference} :
    forest.referenceName? expression = some name ↔
      forest.node expression = .reference name := by
  rw [referenceName?_eq]
  cases forest.node expression <;> simp

theorem all_tree_iff (wellFormed : forest.WellFormed)
    {holds : Shape → Prop} :
    (forest.tree expression).All holds ↔
      holds (forest.node expression).shape ∧
        ∀ child ∈ (forest.node expression).children,
          (forest.tree child).All holds := by
  rw [tree_eq wellFormed, Tree.all_node, shape_node, children_node]
  simp

/-- Nodes correspond when their trees have one shape over related trees. -/
theorem corresponds_of_trees (wellFormed : other.WellFormed)
    {related : Expression → Expression → Prop} {trees : List Tree}
    (tree_eq : other.tree placed = .node (forest.shape expression) trees)
    (below : List.Forall₂ (fun child tree => ∀ image,
      other.tree image = tree → related child image)
      (forest.children expression) trees) :
    (forest.node expression).Corresponds related (other.node placed) := by
  rw [Forest.tree_eq wellFormed] at tree_eq
  obtain ⟨shape, rfl⟩ := Tree.node.inj tree_eq
  apply Node.corresponds_of_shape
  · rw [shape_node, shape_node, shape]
  · rw [children_node, children_node]
    rw [List.forall₂_map_right_iff] at below
    exact below.imp fun child image related => related image rfl

/-- Expressions with one tree have corresponding nodes. -/
theorem corresponds_of_tree_eq (wellFormed : forest.WellFormed)
    (otherWellFormed : other.WellFormed)
    (same : other.tree placed = forest.tree expression) :
    (forest.node expression).Corresponds
      (fun child image => child ∈ (forest.node expression).children ∧
        other.tree image = forest.tree child)
      (other.node placed) := by
  apply corresponds_of_trees otherWellFormed
    (same.trans (forest.tree_eq wellFormed expression))
  rw [List.forall₂_map_right_iff, children_node]
  exact List.forall₂_same.mpr fun child member image isSame => ⟨member, isSame⟩

end Forest

/-- Corresponding nodes are bare references of one name, or both are none. -/
theorem Node.Corresponds.referenceName?_eq {forest other : Forest}
    {expression placed : Expression} {related : Expression → Expression → Prop}
    (corresponds : (forest.node expression).Corresponds related
      (other.node placed)) :
    forest.referenceName? expression = other.referenceName? placed := by
  rw [Forest.referenceName?_eq, Forest.referenceName?_eq]
  generalize forest.node expression = first at *
  generalize other.node placed = second at *
  cases corresponds <;> rfl

end FormulaEngine
