import FormulaEngine.Expression.Basic

/-!
# Equality of expressions

Two expressions are equal when they are one node of one arena, or when their
trees are alike.  Arenas, node numbers, places and sharing do not matter.
-/

namespace FormulaEngine

namespace Arena

mutual

/-- Test to a depth whether the trees of two nodes are alike. -/
def nodesAlike (left right : Arena) : (depth : Nat) → NodeId → NodeId → Bool
  | 0, _, _ => true
  | depth + 1, leftNode, rightNode =>
      (left.shape leftNode).agrees (right.shape rightNode) &&
        listsAlike left right depth (left.children leftNode)
          (right.children rightNode)

/-- Test to a depth whether the trees of two lists of nodes are alike. -/
def listsAlike (left right : Arena) (depth : Nat) :
    List NodeId → List NodeId → Bool
  | [], [] => true
  | leftNode :: leftNodes, rightNode :: rightNodes =>
      nodesAlike left right depth leftNode rightNode &&
        listsAlike left right depth leftNodes rightNodes
  | _, _ => false

end

end Arena

namespace Forest

/-- Test whether two expressions are equal.  The depth of a tree is bounded by
the index of its root. -/
def areEqual (forest : Forest) (left right : Expression) : Bool :=
  left.isSameNode right ||
    (forest.arena left.arena).nodesAlike (forest.arena right.arena)
      (left.node.index + 1) left.node right.node

end Forest

end FormulaEngine
