import FormulaEngine.Proofs.Arena.Occurrence
import FormulaEngine.Proofs.Expression.Session

/-!
# Sharing in copies

An expression is adopted into another arena by appending one node for each
distinct node below it, in post-order.  The copy has the tree of its source, and
two of its positions hold one node just when the source shares one between them.
-/

namespace FormulaEngine

open Stateful

namespace Session

variable {session : Session}

/-- Adopting an expression into another arena succeeds where the arena has room
for a copy.  The distinct nodes below the expression, each listed where it
occurs first in post-order, are numbered in this order from the size of the arena
on; at every position the copy holds the node of that number.  So it has the tree
of its source and shares what its source shares.  Adopting an expression into its
own arena yields its node and does nothing. -/
theorem Reachable.import_keeps_sharing (reachable : session.Reachable)
    (expression : Expression) :
    (∀ index, index ≠ expression.arena →
      ((session.forest.arena index).extent +
        (session.forest.arena expression.arena).copyExtent
          expression.node).Fits →
      ∃ id after,
        let source := session.forest.arena expression.arena
        let before := session.forest.arena index
        let copied := after.arena index
        let distinct := (source.occurrences expression.node).eraseDups
        Edit.adopt index expression session.forest = .ok id after ∧
          session.forest.GrowsAt index after ∧
          copied.Contains id ∧
          copied.tree id = session.forest.tree expression ∧
          distinct.length = source.reachableCount expression.node ∧
          copied.size = before.size + distinct.length ∧
          (∀ position, copied.nodeAt? id position =
            (source.nodeAt? expression.node position).map fun node =>
              NodeId.ofIndex (before.size + distinct.idxOf node)) ∧
          ∀ first second,
            copied.nodeAt? id first = copied.nodeAt? id second ↔
              source.nodeAt? expression.node first =
                source.nodeAt? expression.node second) ∧
    Edit.adopt expression.arena expression session.forest =
      .ok expression.node session.forest := by
  have wellFormed := reachable.valid.wellFormed
  have sourceWellFormed := wellFormed expression.arena
  refine ⟨fun index different enough => ?_, ?_⟩
  · obtain ⟨id, after, run, grows, afterWellFormed, extent, rfl, copies⟩ :=
      Forest.succeeds_of_fits
        ((Edit.leads_adopt_foreign wellFormed different.symm (Extent.le_refl _)
          (Nat.le_refl 65535)).along (Edit.grows_adopt index expression)) enough
    have distinct := sourceWellFormed.postOrder_eq_eraseDups expression.node
    have count := sourceWellFormed.length_postOrder expression.node
    have size : (after.arena index).size = (session.forest.arena index).size +
        ((session.forest.arena expression.arena).postOrder
          expression.node).length := by
      have nodes := congrArg Extent.nodes extent
      rw [Extent.nodes_add, sourceWellFormed.nodes_copyExtent, ← count] at nodes
      exact nodes
    have room := (afterWellFormed index).size_le
    rw [size] at room
    refine ⟨_, after, run, grows, copies.contains _ .refl,
      copies.tree sourceWellFormed (afterWellFormed index), ?_, ?_, ?_,
      copies.nodeAt?_eq_iff (sourceWellFormed.image_injOn room)⟩
    · rw [← distinct, count]
    · rw [← distinct, size]
    · rw [← distinct]
      exact copies.nodeAt? .refl
  · simp only [Edit.adopt, if_true]
    rfl

theorem import_keeps_sharing_nestedCall :
    let negation := Expression.atRoot 0 ⟨2⟩
    negation ∈ nestedCall.held ∧
    ∃ id after,
      let copied := after.arena 1
      Edit.adopt 1 negation nestedCall.forest = .ok id after ∧
        copied.tree id = nestedCall.forest.tree negation ∧
        copied.size = (nestedCall.forest.arena 1).size + 3 ∧
        copied.nodeAt? id [0, 0] = copied.nodeAt? id [0, 1] ∧
        copied.nodeAt? id [0] ≠ copied.nodeAt? id [0, 0] := by
  intro negation
  obtain ⟨id, after, run, -, -, tree, -, size, -, sharing⟩ :=
    (Reachable.import_keeps_sharing reachable_nestedCall negation).1 1
      (by decide) (by unfold Extent.Fits; decide +kernel)
  refine ⟨by decide +kernel, id, after, run, tree, size.trans ?_,
    (sharing [0, 0] [0, 1]).mpr ?_, mt (sharing [0] [0, 0]).mp ?_⟩
  all_goals decide +kernel

end Session

end FormulaEngine
