import FormulaEngine.Proofs.Arena.PostOrder
import FormulaEngine.Proofs.Expression.Correspondence
import FormulaEngine.Proofs.Expression.Session
import FormulaEngine.Proofs.Formula.Likeness

/-!
# Equality and likeness

Two expressions are equal when they are one node, or when their trees are alike.
The trees may as well be compared on detached copies, which number the nodes by
slots and list a shared node once: the numbering and the sharing of the copies
cancel out.  Only a tree with a shape that does not agree with itself, a NaN, is
not alike itself, and there it matters whether two expressions are one node.
-/

namespace FormulaEngine

namespace Tree

mutual

/-- A tree is alike itself just when all its shapes agree with themselves. -/
theorem isAlike_self_iff : (tree : Tree) →
    (tree.isAlike tree = true ↔
      tree.All fun shape => shape.agrees shape = true)
  | node shape children => by
      rw [isAlike, Bool.and_eq_true, areAlike_self_iff children, all_node]

theorem areAlike_self_iff : (trees : List Tree) →
    (areAlike trees trees = true ↔
      ∀ tree ∈ trees, tree.All fun shape => shape.agrees shape = true)
  | [] => by simp [areAlike]
  | tree :: trees => by
      rw [areAlike, Bool.and_eq_true, isAlike_self_iff tree,
        areAlike_self_iff trees, List.forall_mem_cons]

end

end Tree

namespace Arena

variable {left right source : Arena}

theorem listsAlike_eq_areAlike {depth : Nat} {leftNodes : List NodeId}
    (one : ∀ leftNode ∈ leftNodes, ∀ rightNode,
      left.nodesAlike right depth leftNode rightNode =
        (left.tree leftNode).isAlike (right.tree rightNode))
    (rightNodes : List NodeId) :
    left.listsAlike right depth leftNodes rightNodes =
      Tree.areAlike (leftNodes.map left.tree) (rightNodes.map right.tree) := by
  induction leftNodes generalizing rightNodes with
  | nil => cases rightNodes <;> simp [listsAlike, Tree.areAlike]
  | cons leftNode leftNodes ih =>
      obtain ⟨first, rest⟩ := List.forall_mem_cons.mp one
      cases rightNodes with
      | nil => simp [listsAlike, Tree.areAlike]
      | cons rightNode rightNodes =>
          rw [listsAlike, first, ih rest]
          rfl

/-- Comparing nodes to a depth that their trees do not exceed compares the
trees. -/
theorem WellFormed.nodesAlike_eq_isAlike (leftWellFormed : left.WellFormed)
    (rightWellFormed : right.WellFormed) {depth : Nat} {leftNode : NodeId}
    (enough : leftNode.index < depth) (rightNode : NodeId) :
    left.nodesAlike right depth leftNode rightNode =
      (left.tree leftNode).isAlike (right.tree rightNode) := by
  induction depth generalizing leftNode rightNode with
  | zero => omega
  | succ depth ih =>
      rw [nodesAlike, leftWellFormed.tree_eq, rightWellFormed.tree_eq,
        Tree.isAlike, listsAlike_eq_areAlike]
      intro child isChild other
      have older := leftWellFormed.older leftNode child isChild
      exact ih (by omega) other

/-! ### Comparing detached copies -/

/-- Test to a depth whether the nodes at two slots of detached subtrees have trees
that are alike. -/
def slotsAlike (left right : List DetachedNode) :
    (depth : Nat) → (leftSlot rightSlot : Nat) → Bool
  | 0, _, _ => true
  | depth + 1, leftSlot, rightSlot =>
      match left[leftSlot]?, right[rightSlot]? with
      | some leftNode, some rightNode =>
          leftNode.shape.agrees rightNode.shape &&
            (leftNode.slots.length == rightNode.slots.length &&
              (leftNode.slots.zip rightNode.slots).all fun pair =>
                slotsAlike left right depth pair.1 pair.2)
      | _, _ => false

/-- Test whether two detached subtrees have trees that are alike.  The slot of a
root bounds the depth of its tree. -/
def detachedAlike (left right : List DetachedNode) : Bool :=
  match left.length, right.length with
  | leftSlot + 1, rightSlot + 1 =>
      slotsAlike left right (leftSlot + 1) leftSlot rightSlot
  | 0, 0 => true
  | _, _ => false

variable {root id : NodeId}

theorem getElem?_detach (member : id ∈ source.postOrder root) :
    (source.detach root)[(source.postOrder root).idxOf id]? =
      some ⟨source.shape id,
        (source.children id).map (source.postOrder root).idxOf⟩ := by
  rw [detach, List.getElem?_map, List.getElem?_idxOf member]
  rfl

theorem WellFormed.idxOf_child_lt (wellFormed : source.WellFormed)
    (member : id ∈ source.postOrder root) {child : NodeId}
    (isChild : child ∈ source.children id) :
    (source.postOrder root).idxOf child <
      (source.postOrder root).idxOf id := by
  obtain ⟨done, rest, split⟩ := List.mem_iff_append.mp member
  have early := wellFormed.children_first root split child isChild
  rw [wellFormed.idxOf_postOrder root split, split,
    List.idxOf_append_of_mem early]
  exact List.idxOf_lt_length_of_mem early

theorem WellFormed.slotsAlike_detach (leftWellFormed : left.WellFormed)
    (rightWellFormed : right.WellFormed) {leftRoot rightRoot : NodeId}
    {depth : Nat} {leftNode rightNode : NodeId}
    (leftMember : leftNode ∈ left.postOrder leftRoot)
    (rightMember : rightNode ∈ right.postOrder rightRoot)
    (enough : (left.postOrder leftRoot).idxOf leftNode < depth) :
    slotsAlike (left.detach leftRoot) (right.detach rightRoot) depth
        ((left.postOrder leftRoot).idxOf leftNode)
        ((right.postOrder rightRoot).idxOf rightNode) =
      (left.tree leftNode).isAlike (right.tree rightNode) := by
  -- The slots of children precede those of their parents, so what is left of the
  -- depth is enough for them.
  induction depth generalizing leftNode rightNode with
  | zero => omega
  | succ depth ih =>
      rw [slotsAlike, getElem?_detach leftMember, getElem?_detach rightMember,
        leftWellFormed.tree_eq, rightWellFormed.tree_eq, Tree.isAlike,
        Tree.areAlike_eq]
      simp only [List.length_map, List.zip_map, List.all_map]
      congr 2
      rw [Bool.eq_iff_iff, List.all_eq_true, List.all_eq_true]
      apply forall₂_congr
      rintro ⟨leftChild, rightChild⟩ member
      obtain ⟨isLeft, isRight⟩ := List.of_mem_zip member
      have earlier := leftWellFormed.idxOf_child_lt leftMember isLeft
      have leftReached := (leftWellFormed.mem_postOrder leftRoot).mp leftMember
      have rightReached :=
        (rightWellFormed.mem_postOrder rightRoot).mp rightMember
      have same := ih
        ((leftWellFormed.mem_postOrder leftRoot).mpr (leftReached.tail isLeft))
        ((rightWellFormed.mem_postOrder rightRoot).mpr
          (rightReached.tail isRight)) (by omega)
      simp only [Function.comp_apply, Prod.map_apply, same]

theorem WellFormed.idxOf_root (wellFormed : source.WellFormed)
    (root : NodeId) :
    (source.postOrder root).idxOf root + 1 = (source.detach root).length := by
  obtain ⟨earlier, split⟩ :=
    List.getLast?_eq_some_iff.mp (wellFormed.getLast?_postOrder root)
  rw [wellFormed.idxOf_postOrder root split, detach, List.length_map, split,
    List.length_append]
  rfl

/-- Detached copies are alike just when the trees of their sources are. -/
theorem WellFormed.detachedAlike_detach (leftWellFormed : left.WellFormed)
    (rightWellFormed : right.WellFormed) (leftRoot rightRoot : NodeId) :
    detachedAlike (left.detach leftRoot) (right.detach rightRoot) =
      (left.tree leftRoot).isAlike (right.tree rightRoot) := by
  simp only [detachedAlike, ← leftWellFormed.idxOf_root,
    ← rightWellFormed.idxOf_root]
  exact leftWellFormed.slotsAlike_detach rightWellFormed
    ((leftWellFormed.mem_postOrder leftRoot).mpr .refl)
    ((rightWellFormed.mem_postOrder rightRoot).mpr .refl) (Nat.lt_succ_self _)

end Arena

theorem Expression.isSameNode_iff {left right : Expression} :
    left.isSameNode right = true ↔
      left.arena = right.arena ∧ left.node = right.node := by
  simp [isSameNode, and_comm]

namespace Forest

variable {forest : Forest}

theorem areEqual_eq (wellFormed : forest.WellFormed)
    (left right : Expression) :
    forest.areEqual left right =
      (left.isSameNode right ||
        (forest.tree left).isAlike (forest.tree right)) := by
  rw [areEqual, (wellFormed left.arena).nodesAlike_eq_isAlike
    (wellFormed right.arena) (Nat.lt_succ_self _)]
  rfl

theorem tree_eq_of_isSameNode {left right : Expression}
    (same : left.isSameNode right = true) :
    forest.tree left = forest.tree right := by
  obtain ⟨arena, node⟩ := Expression.isSameNode_iff.mp same
  rw [tree, tree, arena, node]

/-- Where a tree is alike itself, identity of nodes does not matter. -/
theorem areEqual_of_self_alike (wellFormed : forest.WellFormed)
    {left right : Expression}
    (selfAlike : (forest.tree left).All fun shape =>
      shape.agrees shape = true) :
    forest.areEqual left right =
      (forest.tree left).isAlike (forest.tree right) := by
  rw [areEqual_eq wellFormed]
  cases same : left.isSameNode right with
  | false => rfl
  | true =>
      rw [← tree_eq_of_isSameNode same,
        (Tree.isAlike_self_iff _).mpr selfAlike]
      rfl

end Forest

namespace Session

variable {session : Session}

/-- Two expressions are equal just when they are one node or their trees are
alike, and that is what the comparison of detached copies tells.  Nothing else
has a say: wherever two expressions live and whatever they share, they compare as
any two others do that have the same trees and are, or are not, one node; and if
the trees hold no NaN, being one node has no say either.  Equality is reflexive
and symmetric on all expressions. -/
theorem Reachable.equality_is_likeness (reachable : session.Reachable)
    (left right : Expression) :
    let forest := session.forest
    (forest.areEqual left right = true ↔
        left.isSameNode right = true ∨
          (forest.tree left).Alike (forest.tree right)) ∧
      forest.areEqual left right =
        (left.isSameNode right ||
          Arena.detachedAlike
            ((forest.arena left.arena).detach left.node)
            ((forest.arena right.arena).detach right.node)) ∧
      (∀ other : Session, other.Reachable → ∀ first second : Expression,
        other.forest.tree first = forest.tree left →
        other.forest.tree second = forest.tree right →
        (first.isSameNode second = left.isSameNode right ∨
          (forest.tree left).All fun shape => shape.agrees shape = true) →
        other.forest.areEqual first second = forest.areEqual left right) ∧
      forest.areEqual left left = true ∧
      forest.areEqual right left = forest.areEqual left right := by
  have wellFormed := reachable.valid.wellFormed
  intro forest
  have equal := Forest.areEqual_eq wellFormed
  refine ⟨?_, ?_, ?_, ?_, ?_⟩
  · rw [equal, Bool.or_eq_true, Tree.isAlike_iff]
  · rw [equal, (wellFormed left.arena).detachedAlike_detach
      (wellFormed right.arena)]
    rfl
  · intro other otherReachable first second firstTree secondTree unaffected
    have otherWellFormed := otherReachable.valid.wellFormed
    rcases unaffected with sameNode | selfAlike
    · rw [equal, Forest.areEqual_eq otherWellFormed, firstTree, secondTree,
        sameNode]
    · rw [Forest.areEqual_of_self_alike wellFormed selfAlike,
        Forest.areEqual_of_self_alike otherWellFormed (by rwa [firstTree]),
        firstTree, secondTree]
  · rw [equal, Expression.isSameNode_iff.mpr ⟨rfl, rfl⟩, Bool.true_or]
  · have sameNode : right.isSameNode left = left.isSameNode right := by
      rw [Bool.eq_iff_iff, Expression.isSameNode_iff, Expression.isSameNode_iff]
      exact and_congr eq_comm eq_comm
    rw [equal, equal, sameNode, Tree.isAlike_comm]

/-- A caller has built a NaN twice, a call whose two arguments are one of them,
and one name in each of two arenas. -/
def twoNaNs : Session :=
  let notNumber := Node.value (.number (.floating Binary64.nan))
  start
    |>.operate (.build 0 notNumber)
    |>.operate (.build 0 notNumber)
    |>.operate (.build 0 (.call ⟨"sum"⟩ [.atRoot 0 ⟨0⟩, .atRoot 0 ⟨0⟩]))
    |>.operate (.build 0 (.reference ⟨"x"⟩))
    |>.operate (.build 1 (.reference ⟨"x"⟩))

theorem reachable_twoNaNs : twoNaNs.Reachable := by
  unfold twoNaNs
  refine .move (.move (.move (.move (.move .start (.operate _ ?_))
    (.operate _ ?_)) (.operate _ ?_)) (.operate _ ?_)) (.operate _ ?_)
  all_goals decide +kernel

theorem equality_is_likeness_twoNaNs :
    let forest := twoNaNs.forest
    let call := Expression.atRoot 0 ⟨2⟩
    let name := Expression.atRoot 0 ⟨3⟩
    let foreign := Expression.atRoot 1 ⟨0⟩
    forest.areEqual call call = true ∧
      forest.areEqual (.atRoot 0 ⟨0⟩) (.atRoot 0 ⟨1⟩) = false ∧
      forest.areEqual name foreign = forest.areEqual name name := by
  intro forest call name foreign
  -- What evaluates is the comparison of detached copies: that of nodes recurses
  -- on a depth and on lists at once.
  have equal := Reachable.equality_is_likeness reachable_twoNaNs
  refine ⟨(equal call call).2.2.2.1,
    (equal (.atRoot 0 ⟨0⟩) (.atRoot 0 ⟨1⟩)).2.1.trans (by decide +kernel),
    (equal name name).2.2.1 twoNaNs reachable_twoNaNs name foreign rfl rfl
      (.inr ?_)⟩
  rw [← Tree.isAlike_self_iff]
  decide +kernel

end Session

end FormulaEngine
