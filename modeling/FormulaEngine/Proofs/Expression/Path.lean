import FormulaEngine.Expression.Edit
import FormulaEngine.Proofs.Arena.Unfolding
import FormulaEngine.Proofs.Formula.Position

/-!
# Paths to a root

A path belongs to a node when it is a chain of parents: each step names a node
that has the one before among its children, at the index of the step.  An edit
allocates the nodes of a path anew, from the bottom up.  The result is again a
chain, with the same indexes, and the tree at its end is the old one with the
subtree at these indexes replaced.
-/

namespace FormulaEngine

open Stateful

/-- The node at the end of a path. -/
def rootOf (node : NodeId) : (path : List Step) → NodeId
  | [] => node
  | step :: path => rootOf step.node path

/-- The position to which a path leads, seen from its end. -/
def positionOf (path : List Step) : List Nat :=
  (path.map Step.index).reverse

@[simp]
theorem positionOf_cons (step : Step) (path : List Step) :
    positionOf (step :: path) = positionOf path ++ [step.index] := by
  simp [positionOf]

namespace Arena

/-- Each step of a path names a parent of the node before it. -/
def Chain (arena : Arena) : NodeId → (path : List Step) → Prop
  | node, [] => arena.Contains node
  | node, step :: path =>
      (arena.children step.node)[step.index]? = some node ∧
        arena.Chain step.node path

/-- The extent of new ancestors along a path. -/
def pathExtent (arena : Arena) (path : List Step) : Extent :=
  (path.map fun step => (arena.shape step.node).sharingExtent
    (arena.children step.node).length).sum

@[simp]
theorem nodes_pathExtent (arena : Arena) (path : List Step) :
    (arena.pathExtent path).nodes = path.length := by
  simp [pathExtent, Extent.nodes_sum]

section Chain

variable {arena before after : Arena} {node : NodeId} {path : List Step}

theorem Chain.contains (wellFormed : arena.WellFormed)
    (chain : arena.Chain node path) : arena.Contains node := by
  cases path with
  | nil => exact chain
  | cons step path =>
      exact wellFormed.contains_child (List.mem_of_getElem? chain.1)

theorem Chain.contains_rootOf (chain : arena.Chain node path) :
    arena.Contains (rootOf node path) := by
  induction path generalizing node with
  | nil => exact chain
  | cons step path ih => exact ih chain.2

theorem Chain.contains_step (wellFormed : arena.WellFormed)
    (chain : arena.Chain node path) {step : Step} (member : step ∈ path) :
    arena.Contains step.node := by
  induction path generalizing node with
  | nil => simp at member
  | cons first path ih =>
      rcases List.mem_cons.mp member with rfl | member
      · exact chain.2.contains wellFormed
      · exact ih chain.2 member

/-- A chain stays a chain when its arena grows. -/
theorem Chain.extend (wellFormed : before.WellFormed)
    (grows : before.Extends after) (chain : before.Chain node path) :
    after.Chain node path := by
  induction path generalizing node with
  | nil => exact grows.contains chain
  | cons step path ih =>
      refine ⟨?_, ih chain.2⟩
      rw [grows.children wellFormed (chain.2.contains wellFormed)]
      exact chain.1

theorem Extends.pathExtent (grows : before.Extends after)
    (wellFormed : before.WellFormed) (chain : before.Chain node path) :
    after.pathExtent path = before.pathExtent path := by
  induction path generalizing node with
  | nil => rfl
  | cons step path ih =>
      have inside := chain.2.contains wellFormed
      have rest := ih chain.2
      simp only [Arena.pathExtent, List.map_cons, List.sum_cons] at rest ⊢
      rw [grows.shape wellFormed inside, grows.children wellFormed inside, rest]

/-- The tree of a node lies in the tree of its root, at the indexes of the
path. -/
theorem Chain.subtreeAt? (wellFormed : arena.WellFormed)
    (chain : arena.Chain node path) :
    (arena.tree (rootOf node path)).subtreeAt? (positionOf path) =
      some (arena.tree node) := by
  induction path generalizing node with
  | nil => rfl
  | cons step path ih =>
      rw [rootOf, positionOf_cons, Tree.subtreeAt?_append, ih chain.2,
        Option.bind_some, wellFormed.tree_eq step.node]
      simp [Tree.subtreeAt?, chain.1]

end Chain

/-- The nodes of a path are allocated anew: each new one has the shape of the
old one and its children, but for the child that comes from the path. -/
inductive Rebuilt (before after : Arena) :
    NodeId → (path newPath : List Step) → Prop
  | root (child : NodeId) : Rebuilt before after child [] []
  | step {child old ancestor : NodeId} {index : Nat} {path newPath : List Step}
      (shape_eq : after.shape ancestor = before.shape old)
      (children_eq :
        after.children ancestor = (before.children old).set index child)
      (rest : Rebuilt before after ancestor path newPath) :
      Rebuilt before after child (⟨old, index⟩ :: path)
        (⟨ancestor, index⟩ :: newPath)

namespace Rebuilt

variable {before middle after : Arena} {node new : NodeId}
  {path newPath : List Step}

theorem indexes_eq (rebuilt : Rebuilt before after new path newPath) :
    newPath.map Step.index = path.map Step.index := by
  induction rebuilt with
  | root => rfl
  | step _ _ _ ih => simp [ih]

theorem positionOf_eq (rebuilt : Rebuilt before after new path newPath) :
    positionOf newPath = positionOf path := by
  rw [positionOf, rebuilt.indexes_eq, positionOf]

theorem of_extends (wellFormed : before.WellFormed)
    (grows : before.Extends middle) (chain : before.Chain node path)
    (rebuilt : Rebuilt middle after new path newPath) :
    Rebuilt before after new path newPath := by
  induction rebuilt generalizing node with
  | root => exact .root _
  | step shape_eq children_eq rest ih =>
      have inside := chain.2.contains wellFormed
      refine .step ?_ ?_ (ih chain.2)
      · rw [shape_eq, grows.shape wellFormed inside]
      · rw [children_eq, grows.children wellFormed inside]

/-- The new path is a chain. -/
theorem chain (old : before.Chain node path) (inside : after.Contains new)
    (rebuilt : Rebuilt before after new path newPath) :
    after.Chain new newPath := by
  induction rebuilt generalizing node with
  | root => exact inside
  | @step child _ ancestor index _ _ _ children_eq rest ih =>
      have bound := (List.getElem?_eq_some_iff.mp old.1).1
      have isChild : (after.children ancestor)[index]? = some child := by
        rw [children_eq, List.getElem?_set_self bound]
      exact ⟨isChild,
        ih old.2 (contains_of_child (List.mem_of_getElem? isChild))⟩

/-- The tree at the end of the new path is the old one with one subtree
replaced. -/
theorem tree_rootOf (wellFormed : before.WellFormed)
    (afterWellFormed : after.WellFormed) (grows : before.Extends after)
    (old : before.Chain node path)
    (rebuilt : Rebuilt before after new path newPath) :
    after.tree (rootOf new newPath) =
      (before.tree (rootOf node path)).replaceAt (positionOf path)
        (after.tree new) := by
  -- Upwards along the path: each ancestor is its old tree with one child
  -- replaced, and that child is the ancestor below.
  induction rebuilt generalizing node with
  | root => rfl
  | @step child oldAncestor ancestor index _ _ shape_eq children_eq rest ih =>
      have siblings : (before.children oldAncestor).map after.tree =
          (before.children oldAncestor).map before.tree :=
        List.map_congr_left fun sibling isChild =>
          grows.tree wellFormed afterWellFormed
            (wellFormed.contains_child isChild)
      have replaced : after.tree ancestor =
          (before.tree oldAncestor).replaceAt [index] (after.tree child) := by
        rw [afterWellFormed.tree_eq, wellFormed.tree_eq, shape_eq, children_eq,
          List.map_set, siblings]
        simp only [Tree.replaceAt, Tree.shape_node, Tree.children_node]
        congr 1
        exact List.set_eq_modify _ _ _
      rw [rootOf, rootOf, ih old.2, replaced, positionOf_cons,
        Tree.replaceAt_append (old.2.subtreeAt? wellFormed)]

/-- A new ancestor keeps the children off the path. -/
theorem siblings_eq (rebuilt : Rebuilt before after new path newPath) :
    List.Forall₂ (fun step newStep : Step =>
      after.shape newStep.node = before.shape step.node ∧
        ∀ index, index ≠ step.index →
          (after.children newStep.node)[index]? =
            (before.children step.node)[index]?) path newPath := by
  induction rebuilt with
  | root => exact .nil
  | step shape_eq children_eq rest ih =>
      refine .cons ⟨shape_eq, fun other different => ?_⟩ ih
      rw [children_eq, List.getElem?_set_ne different.symm]

end Rebuilt

section Allocation

theorem appends_replaceEntry (nodes : List NodeId) (index : Nat)
    (id : NodeId) : Along Extends (replaceEntry nodes index id) := by
  unfold replaceEntry
  split
  · exact along_pure _
  · exact along_throw _

theorem appends_rebuildPath (child : NodeId) (path : List Step) :
    Along Extends (rebuildPath child path) := by
  induction path generalizing child with
  | nil => exact along_pure _
  | cons step path ih =>
      exact along_get_bind fun arena =>
        along_bind (appends_replaceEntry _ _ _) fun siblings =>
          along_bind (appends_rebuild step.node siblings) fun ancestor =>
            along_bind (ih ancestor) fun _ => along_pure _

theorem appends_rebuildPlaced (expression : Expression)
    (children : List NodeId) :
    Along Extends (rebuildPlaced expression children) :=
  along_bind (appends_rebuild expression.node children) fun id =>
    along_bind (appends_rebuildPath id expression.path) fun _ => along_pure _

theorem replaceEntry_of_getElem? {nodes : List NodeId} {index : Nat}
    {old : NodeId} (found : nodes[index]? = some old) (id : NodeId)
    (arena : Arena) :
    replaceEntry nodes index id arena = .ok (nodes.set index id) arena := by
  have bound := (List.getElem?_eq_some_iff.mp found).1
  simp only [replaceEntry, if_pos bound]
  rfl

/-- Copying a node with one child replaced adds a node of its shape. -/
theorem leads_rebuild_set {before : Arena} {old new : NodeId} {index : Nat}
    {wanted : Extent} {longest : Nat} (wellFormed : before.WellFormed)
    (inside : before.Contains new)
    (room : before.extent + (before.shape old).sharingExtent
      (before.children old).length ≤ wanted)
    (long : 65535 ≤ longest) :
    Leads (rebuild old ((before.children old).set index new)) before
      (fun id after =>
        before.Adds (before.shape old) ((before.children old).set index new) id
            after ∧
          after.extent = before.extent + (before.shape old).sharingExtent
            (before.children old).length)
      (Exhausts wanted longest) := by
  have count : ((before.children old).set index new).length =
      (before.children old).length :=
    List.length_set
  rw [← count] at room ⊢
  apply leads_rebuild wellFormed _ _ room
  · intro function _
    rw [count]
    exact Nat.le_trans (length_children_le before old) long
  · rw [count]
    exact admits_children before old
  · intro child member
    rcases List.mem_or_eq_of_mem_set member with kept | rfl
    · exact wellFormed.contains_child kept
    · exact inside

/-- Rebuilding a path allocates one node for each step. -/
theorem leads_rebuildPath {before : Arena} {node new : NodeId}
    {path : List Step} {wanted : Extent} {longest : Nat}
    (wellFormed : before.WellFormed) (chain : before.Chain node path)
    (inside : before.Contains new)
    (room : before.extent + before.pathExtent path ≤ wanted)
    (long : 65535 ≤ longest) :
    Leads (rebuildPath new path) before
      (fun newPath after =>
        before.Extends after ∧ after.WellFormed ∧
          Rebuilt before after new path newPath ∧
          after.extent = before.extent + before.pathExtent path)
      (Exhausts wanted longest) := by
  -- The rest of the path is read in the arena that holds the new ancestor, so
  -- what is said of it is carried over from the old one.
  induction path generalizing before node new with
  | nil =>
      exact leads_pure
        ⟨Extends.refl before, wellFormed, .root new,
          (Extent.add_zero _).symm⟩
  | cons step path ih =>
      obtain ⟨isChild, chain⟩ := chain
      have split : before.pathExtent (step :: path) =
          (before.shape step.node).sharingExtent
            (before.children step.node).length + before.pathExtent path := by
        simp [pathExtent]
      rw [split, ← Extent.add_assoc] at room
      rw [split]
      apply leads_get_bind
      apply leads_bind_of_ok (replaceEntry_of_getElem? isChild new before)
      apply leads_bind (leads_rebuild_set wellFormed inside
        (Extent.le_of_add_le room) long)
      rintro ancestor middle ⟨adds, extent⟩
      have same := adds.grows.pathExtent wellFormed chain
      apply leads_bind (ih adds.wellFormed (chain.extend wellFormed adds.grows)
        adds.contains (by rwa [extent, same]))
      rintro newPath after ⟨grows, afterWellFormed, rebuilt, afterExtent⟩
      refine leads_pure ⟨adds.grows.trans grows, afterWellFormed, ?_, ?_⟩
      · refine .step ?_ ?_ (rebuilt.of_extends wellFormed adds.grows chain)
        · rw [grows.shape adds.wellFormed adds.contains, adds.shape_eq]
        · rw [grows.children adds.wellFormed adds.contains, adds.children_eq]
      · rw [afterExtent, extent, same, Extent.add_assoc]

/-- Rebuilding a placed expression allocates it and its ancestors. -/
theorem leads_rebuildPlaced {arena : Arena} {expression : Expression}
    {ids : List NodeId} {wanted : Extent} {longest : Nat}
    (wellFormed : arena.WellFormed)
    (chain : arena.Chain expression.node expression.path)
    (fits : (arena.shape expression.node).admits ids.length)
    (older : ∀ id ∈ ids, arena.Contains id)
    (room : arena.extent +
      ((arena.shape expression.node).sharingExtent ids.length +
        arena.pathExtent expression.path) ≤ wanted)
    (long : 65535 ≤ longest) (short : ids.length ≤ longest) :
    Leads (rebuildPlaced expression ids) arena
      (fun result after =>
        after.WellFormed ∧ result.arena = expression.arena ∧
          after.Contains result.node ∧
          after.shape result.node = arena.shape expression.node ∧
          after.children result.node = ids ∧
          arena.Rebuilt after result.node expression.path result.path ∧
          after.extent = arena.extent +
            ((arena.shape expression.node).sharingExtent ids.length +
              arena.pathExtent expression.path))
      (Exhausts wanted longest) := by
  rw [← Extent.add_assoc] at room
  apply leads_bind (leads_rebuild wellFormed fits older
    (Extent.le_of_add_le room) fun _ _ => short)
  rintro id middle ⟨adds, extent⟩
  have same := adds.grows.pathExtent wellFormed chain
  apply leads_bind (leads_rebuildPath adds.wellFormed
    (chain.extend wellFormed adds.grows) adds.contains
    (by rwa [extent, same]) long)
  rintro path after ⟨grows, afterWellFormed, rebuilt, afterExtent⟩
  refine leads_pure ⟨afterWellFormed, rfl, grows.contains adds.contains, ?_, ?_,
    rebuilt.of_extends wellFormed adds.grows chain, ?_⟩
  · rw [grows.shape adds.wellFormed adds.contains, adds.shape_eq]
  · rw [grows.children adds.wellFormed adds.contains, adds.children_eq]
  · rw [afterExtent, extent, same, Extent.add_assoc]

end Allocation

end Arena

end FormulaEngine
