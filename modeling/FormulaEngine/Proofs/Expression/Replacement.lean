import FormulaEngine.Proofs.Expression.Session

/-!
# Replacing children

New children that fit a held expression replace the old ones, unless an arena is
full.  The tree of the result is the old node over the trees of the new
children, and it takes the place of the old subtree in the tree of the root;
what lies elsewhere stays, node for node.
-/

namespace FormulaEngine

open Stateful

namespace Forest

variable {before after : Forest} {expression result : Expression}
  {children : List Expression}

theorem Places.subtreeAt?_indexPath (places : before.Places expression)
    (wellFormed : before.WellFormed) :
    (before.tree expression.root).subtreeAt? expression.indexPath =
      some (before.tree expression) := by
  rw [root_eq]
  exact Arena.Chain.subtreeAt? (wellFormed expression.arena) places

namespace Replaces

theorem indexPath_eq
    (replaces : before.Replaces expression children result after) :
    result.indexPath = expression.indexPath :=
  replaces.rebuilt.positionOf_eq

/-- The subtree at the place of the expression is replaced in the tree of its
root. -/
theorem tree_root (replaces : before.Replaces expression children result after)
    (wellFormed : before.WellFormed) (places : before.Places expression) :
    after.tree result.root =
      (before.tree expression.root).replaceAt expression.indexPath
        (after.tree result) := by
  have grows := replaces.produces.grows.extends expression.arena
  have afterWellFormed := replaces.produces.wellFormed expression.arena
  have root := replaces.rebuilt.tree_rootOf (wellFormed expression.arena)
    afterWellFormed grows places
  rw [root_eq, root_eq expression, tree, tree, tree, replaces.arena_eq]
  exact root

/-- One node is allocated for the expression and one for each ancestor, besides
the copies of foreign children. -/
theorem size_eq (replaces : before.Replaces expression children result after)
    (wellFormed : before.WellFormed) :
    (after.arena expression.arena).size =
      (before.arena expression.arena).size + (1 + expression.path.length +
        (children.map (before.importedNodes expression.arena)).sum) := by
  have nodes := congrArg Extent.nodes replaces.extent_eq
  simp only [replacementExtent, Extent.nodes_add, Shape.nodes_sharingExtent,
    Arena.nodes_pathExtent, wellFormed.nodes_importsExtent] at nodes
  simp only [Arena.extent] at nodes
  omega

end Replaces

end Forest

namespace Session

/-- New children that fit a held expression replace its subtree in the tree of
its root.  The call succeeds when what it stores fits in the arena, and it
allocates just the new node, its new ancestors, and a copy of each foreign
child. -/
theorem Reachable.setChildren_replaces_subtree {session : Session}
    (reachable : session.Reachable) {expression : Expression}
    {children : List Expression} (held : expression ∈ session.held)
    (childrenHeld : ∀ child ∈ children, child ∈ session.held)
    (fits : (session.forest.shape expression).admits children.length)
    (short : children.length ≤ 65535)
    (room : ((session.forest.arena expression.arena).extent +
      session.forest.replacementExtent expression children).Fits) :
    ∃ result after,
      session.forest.setChildren expression children = .ok (result, after) ∧
      after.tree result =
        .node (session.forest.shape expression)
          (children.map session.forest.tree) ∧
      (session.forest.tree expression.root).subtreeAt? expression.indexPath =
        some (session.forest.tree expression) ∧
      after.tree result.root =
        (session.forest.tree expression.root).replaceAt expression.indexPath
          (after.tree result) ∧
      (∀ position, Tree.Apart expression.indexPath position →
        (after.tree result.root).subtreeAt? position =
          (session.forest.tree expression.root).subtreeAt? position) ∧
      result.arena = expression.arena ∧
      result.indexPath = expression.indexPath ∧
      List.Forall₂ (fun old new : Step => ∀ index, index ≠ old.index →
        ((after.arena expression.arena).children new.node)[index]? =
          ((session.forest.arena expression.arena).children old.node)[index]?)
        expression.path result.path ∧
      List.Forall₂ (fun (child : Expression) (id : NodeId) =>
        child.arena = expression.arena → id = child.node) children
          ((after.arena expression.arena).children result.node) ∧
      (after.arena expression.arena).size =
        (session.forest.arena expression.arena).size +
          (1 + expression.path.length + (children.map
            (session.forest.importedNodes expression.arena)).sum) := by
  have valid := reachable.valid
  have wellFormed := valid.wellFormed
  have places := valid.places expression held
  have leads := Edit.leads_rebuild wellFormed places
    (fun child isChild => valid.places child (childrenHeld child isChild))
    fits (Extent.le_refl _) (Nat.le_refl 65535) short
  obtain ⟨result, after, run, replaces⟩ := leads.succeeds
    fun error after ⟨_, cause, _, exceeds⟩ =>
      room.not_exceeds (Nat.le_refl 65535) cause exceeds
  have root := replaces.tree_root wellFormed places
  refine ⟨result, after, ?_, replaces.produces.tree_eq,
    places.subtreeAt?_indexPath wellFormed, root, ?_, replaces.arena_eq,
    replaces.indexPath_eq, ?_, ?_, replaces.size_eq wellFormed⟩
  · simp only [Forest.setChildren, Edit.outcome, Edit.setChildren_of_admits fits,
      run]
  · intro position apart
    rw [root, Tree.subtreeAt?_replaceAt_of_apart apart]
  · exact replaces.rebuilt.siblings_eq.imp fun _ _ siblings => siblings.2
  · rw [← replaces.arena_eq]
    exact replaces.produces.adopts.imp fun _ _ adopts => adopts.kept

theorem setChildren_replaces_subtree_nestedCall :
    let call := (Expression.atRoot 0 ⟨2⟩).below 0 ⟨1⟩
    let children := [Expression.atRoot 1 ⟨0⟩, .atRoot 0 ⟨0⟩]
    ∃ result after,
      nestedCall.forest.setChildren call children = .ok (result, after) ∧
        after.tree result.root =
          (nestedCall.forest.tree call.root).replaceAt [0] (after.tree result) := by
  intro call children
  have held : call ∈ nestedCall.held := by decide +kernel
  have childrenHeld : ∀ child ∈ children, child ∈ nestedCall.held := by
    decide +kernel
  have room : ((nestedCall.forest.arena call.arena).extent +
      nestedCall.forest.replacementExtent call children).Fits := by
    unfold Extent.Fits
    decide +kernel
  obtain ⟨result, after, run, -, -, root, -⟩ :=
    Reachable.setChildren_replaces_subtree reachable_nestedCall held
      childrenHeld (by decide +kernel) (by decide) room
  exact ⟨result, after, run, root⟩

end Session

end FormulaEngine
