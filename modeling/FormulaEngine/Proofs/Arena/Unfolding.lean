import FormulaEngine.Expression.Equality
import FormulaEngine.Expression.Visitor
import FormulaEngine.Proofs.Arena.WellFormed

/-!
# Recursion along children

Children are older than their parents, so every descent from a node to its
children ends.  The recursions along children carry a bound on their depth; in a
well-formed arena the index of a node bounds the depth of its tree, no bound is
ever reached, and unfolding, gathering, comparing and walking satisfy the
equations that a recursion without a bound would satisfy.
-/

namespace FormulaEngine

namespace Arena

variable {arena : Arena}

/-- No node has an endless chain of descendants. -/
theorem WellFormed.wellFounded_child (wellFormed : arena.WellFormed) :
    WellFounded fun child parent => child ∈ arena.children parent :=
  Subrelation.wf (fun {child parent} isChild =>
    wellFormed.older parent child isChild) (measure NodeId.index).wf

/-! ### Unfolding -/

/-- All depths beyond the index of a node unfold it alike. -/
theorem WellFormed.unfold_congr (wellFormed : arena.WellFormed)
    {first second : Nat} {id : NodeId} (firstEnough : id.index < first)
    (secondEnough : id.index < second) :
    arena.unfold first id = arena.unfold second id := by
  induction first generalizing second id with
  | zero => omega
  | succ first ih =>
      cases second with
      | zero => omega
      | succ second =>
          simp only [Arena.unfold]
          congr 1
          apply List.map_congr_left
          intro child isChild
          have older := wellFormed.older id child isChild
          exact ih (by omega) (by omega)

/-- The tree of a node is its shape over the trees of its children. -/
theorem WellFormed.tree_eq (wellFormed : arena.WellFormed) (id : NodeId) :
    arena.tree id =
      .node (arena.shape id) ((arena.children id).map arena.tree) := by
  rw [Arena.tree, Arena.unfold]
  congr 1
  apply List.map_congr_left
  intro child isChild
  exact wellFormed.unfold_congr (wellFormed.older id child isChild)
    (Nat.lt_succ_self _)

/-- Trees keep their form when shapes and children do, node for node. -/
theorem WellFormed.tree_image {source target : Arena}
    (sourceWellFormed : source.WellFormed)
    (targetWellFormed : target.WellFormed) (image : NodeId → NodeId)
    {inside : NodeId → Prop}
    (closed : ∀ id, inside id → ∀ child ∈ source.children id, inside child)
    (shape : ∀ id, inside id → target.shape (image id) = source.shape id)
    (children : ∀ id, inside id →
      target.children (image id) = (source.children id).map image)
    {id : NodeId} (member : inside id) :
    target.tree (image id) = source.tree id := by
  induction id using sourceWellFormed.wellFounded_child.induction with
  | _ id ih =>
      rw [targetWellFormed.tree_eq, sourceWellFormed.tree_eq,
        shape id member, children id member, List.map_map]
      congr 1
      apply List.map_congr_left
      intro child isChild
      exact ih child isChild (closed id member child isChild)

/-- A node has the same tree in every extension of its arena. -/
theorem Extends.tree {before after : Arena} (grows : before.Extends after)
    (wellFormed : before.WellFormed) (afterWellFormed : after.WellFormed)
    {id : NodeId} (inside : before.Contains id) :
    after.tree id = before.tree id :=
  wellFormed.tree_image afterWellFormed (fun id => id)
    (fun _ _ _ isChild => wellFormed.contains_child isChild)
    (fun _ member => grows.shape wellFormed member)
    (fun _ member => by rw [grows.children wellFormed member, List.map_id'])
    inside

/-! ### Gathering -/

/-- All depths beyond the index of a node gather alike below it. -/
theorem WellFormed.gather_congr (wellFormed : arena.WellFormed)
    {first second : Nat} {gathered : List NodeId} {id : NodeId}
    (firstEnough : id.index < first) (secondEnough : id.index < second) :
    arena.gather first gathered id = arena.gather second gathered id := by
  induction first generalizing second gathered id with
  | zero => omega
  | succ first ih =>
      cases second with
      | zero => omega
      | succ second =>
          simp only [gather]
          congr 2
          apply List.foldl_ext
          intro gathered child isChild
          have older := wellFormed.older id child isChild
          exact ih (by omega) (by omega)

/-- Extend a list of nodes, latest first, by the nodes below `id`. -/
def gatherAll (source : Arena) (gathered : List NodeId) (id : NodeId) :
    List NodeId :=
  source.gather (id.index + 1) gathered id

theorem WellFormed.gatherAll_eq (wellFormed : arena.WellFormed)
    (gathered : List NodeId) (id : NodeId) :
    arena.gatherAll gathered id =
      if id ∈ gathered then gathered
      else id :: (arena.children id).foldl arena.gatherAll gathered := by
  simp only [gatherAll, gather]
  congr 2
  apply List.foldl_ext
  intro gathered child isChild
  exact wellFormed.gather_congr (wellFormed.older id child isChild)
    (Nat.lt_succ_self _)

/-! ### Comparing -/

theorem listsAlike_eq (left right : Arena) (depth : Nat)
    (leftNodes rightNodes : List NodeId) :
    left.listsAlike right depth leftNodes rightNodes =
      (leftNodes.length == rightNodes.length &&
        (leftNodes.zip rightNodes).all fun pair =>
          left.nodesAlike right depth pair.1 pair.2) := by
  induction leftNodes generalizing rightNodes with
  | nil => cases rightNodes <;> simp [listsAlike]
  | cons leftNode leftNodes ih =>
      cases rightNodes with
      | nil => simp [listsAlike]
      | cons rightNode rightNodes =>
          have lengths : (leftNodes.length + 1 == rightNodes.length + 1) =
              (leftNodes.length == rightNodes.length) := by
            rw [Bool.eq_iff_iff]
            simp
          simp only [listsAlike, ih, List.length_cons, List.zip_cons_cons,
            List.all_cons, lengths]
          rw [Bool.and_left_comm]

/-- All depths beyond the index of a node compare it alike with another one. -/
theorem WellFormed.nodesAlike_congr {left right : Arena}
    (wellFormed : left.WellFormed) {first second : Nat} {leftNode : NodeId}
    (rightNode : NodeId) (firstEnough : leftNode.index < first)
    (secondEnough : leftNode.index < second) :
    left.nodesAlike right first leftNode rightNode =
      left.nodesAlike right second leftNode rightNode := by
  induction first generalizing second leftNode rightNode with
  | zero => omega
  | succ first ih =>
      cases second with
      | zero => omega
      | succ second =>
          simp only [nodesAlike, listsAlike_eq]
          congr 2
          rw [Bool.eq_iff_iff, List.all_eq_true, List.all_eq_true]
          apply forall₂_congr
          intro pair member
          have older := wellFormed.older leftNode pair.1
            (List.of_mem_zip member).1
          rw [ih pair.2 (by omega) (show pair.1.index < second by omega)]

/-- Test whether the trees of two nodes are alike. -/
def treesAlike (left right : Arena) (leftNode rightNode : NodeId) : Bool :=
  left.nodesAlike right (leftNode.index + 1) leftNode rightNode

theorem WellFormed.treesAlike_eq {left right : Arena}
    (wellFormed : left.WellFormed) (leftNode rightNode : NodeId) :
    left.treesAlike right leftNode rightNode =
      ((left.shape leftNode).agrees (right.shape rightNode) &&
        ((left.children leftNode).length == (right.children rightNode).length &&
          ((left.children leftNode).zip (right.children rightNode)).all
            fun pair => left.treesAlike right pair.1 pair.2)) := by
  rw [treesAlike, nodesAlike, listsAlike_eq]
  congr 2
  rw [Bool.eq_iff_iff, List.all_eq_true, List.all_eq_true]
  apply forall₂_congr
  intro pair member
  rw [treesAlike, wellFormed.nodesAlike_congr pair.2
    (wellFormed.older leftNode pair.1 (List.of_mem_zip member).1)
    (Nat.lt_succ_self _)]

end Arena

end FormulaEngine
