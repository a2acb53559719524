import FormulaEngine.Proofs.Expression.Path

/-!
# Placed expressions

An expression is placed in a forest when its path is a chain of parents in its
arena.  Looking at the children, the parent or the root of a placed expression
leads to placed ones, and there and back is no move at all.
-/

namespace FormulaEngine

namespace Forest

variable {forest : Forest} {expression : Expression}

/-- All arenas are well-formed. -/
def WellFormed (forest : Forest) : Prop :=
  ∀ index, (forest.arena index).WellFormed

/-- The path of an expression is a chain of parents of its node. -/
def Places (forest : Forest) (expression : Expression) : Prop :=
  (forest.arena expression.arena).Chain expression.node expression.path

theorem wellFormed_empty : (⟨#[]⟩ : Forest).WellFormed :=
  fun _ => Arena.wellFormed_empty

theorem Places.contains (places : forest.Places expression)
    (wellFormed : forest.WellFormed) :
    (forest.arena expression.arena).Contains expression.node :=
  Arena.Chain.contains (wellFormed expression.arena) places

theorem root_eq (expression : Expression) :
    expression.root =
      .atRoot expression.arena (rootOf expression.node expression.path) := by
  obtain ⟨arena, node, path⟩ := expression
  induction path generalizing node with
  | nil => rfl
  | cons step path ih =>
      have same := Expression.root_below ⟨arena, step.node, path⟩ step.index node
      rw [Expression.below] at same
      exact same.trans (ih step.node)

/-- The children of a node and the children that it is made of are the same. -/
theorem children_node (forest : Forest) (expression : Expression) :
    (forest.node expression).children = forest.children expression := by
  simp only [node, children, Arena.children]
  cases (forest.arena expression.arena).stored expression.node <;> rfl

theorem getElem?_children (forest : Forest) (expression : Expression)
    (index : Nat) :
    (forest.children expression)[index]? =
      ((forest.arena expression.arena).children expression.node)[index]?.map
        (expression.below index) :=
  List.getElem?_mapIdx

/-- The tree of an expression is its shape over the trees of its children. -/
theorem tree_eq (wellFormed : forest.WellFormed) (expression : Expression) :
    forest.tree expression =
      .node (forest.shape expression)
        ((forest.children expression).map forest.tree) := by
  rw [tree, (wellFormed expression.arena).tree_eq, shape]
  congr 1
  apply List.ext_getElem?
  intro index
  rw [List.getElem?_map, List.getElem?_map, getElem?_children, Option.map_map]
  rfl

section Navigation

/-- A child is placed below its parent. -/
theorem Places.child (places : forest.Places expression) {index : Nat}
    {child : Expression}
    (isChild : (forest.children expression)[index]? = some child) :
    forest.Places child ∧ child.parent? = some expression ∧
      child.index? = some index ∧ child.root = expression.root := by
  rw [getElem?_children] at isChild
  obtain ⟨node, found, rfl⟩ := Option.map_eq_some_iff.mp isChild
  exact ⟨⟨found, places⟩, rfl, rfl, Expression.root_below ..⟩

theorem Places.of_mem_children (places : forest.Places expression)
    {child : Expression} (isChild : child ∈ forest.children expression) :
    forest.Places child := by
  obtain ⟨index, found⟩ := List.mem_iff_getElem?.mp isChild
  exact (places.child found).1

/-- A placed expression is found again among the children of its parent. -/
theorem Places.parent (places : forest.Places expression)
    {parent : Expression} (isParent : expression.parent? = some parent) :
    forest.Places parent ∧ ∃ index, expression.index? = some index ∧
      (forest.children parent)[index]? = some expression := by
  obtain ⟨arena, node, path⟩ := expression
  cases path with
  | nil => simp [Expression.parent?] at isParent
  | cons step path =>
      obtain rfl := Option.some.inj isParent
      refine ⟨places.2, step.index, rfl, ?_⟩
      rw [getElem?_children, places.1]
      rfl

theorem Places.root (places : forest.Places expression) :
    forest.Places expression.root := by
  rw [root_eq]
  exact Arena.Chain.contains_rootOf places

theorem Places.withoutParent (places : forest.Places expression)
    (wellFormed : forest.WellFormed) :
    forest.Places expression.withoutParent :=
  places.contains wellFormed

end Navigation

end Forest

end FormulaEngine
