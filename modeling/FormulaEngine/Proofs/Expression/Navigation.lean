import FormulaEngine.Proofs.Expression.Replacement

/-!
# Navigation by positions

Following child indexes from a placed expression leads to a placed expression of
the same tree, at the position that the indexes say.  It leads somewhere just
when the tree has a subtree there, and that subtree is the tree of the place
reached.
-/

namespace FormulaEngine

namespace Forest

variable {forest : Forest} {start expression : Expression}

theorem descend?_cons (forest : Forest) (start : Expression) (index : Nat)
    (position : List Nat) :
    forest.descend? start (index :: position) =
      (forest.children start)[index]?.bind fun child =>
        forest.descend? child position := by
  rw [descend?]
  cases (forest.children start)[index]? <;> rfl

theorem indexPath_below (start : Expression) (index : Nat) (node : NodeId) :
    (start.below index node).indexPath = start.indexPath ++ [index] :=
  positionOf_cons ⟨start.node, index⟩ start.path

/-- Following a position adds its steps to the path. -/
theorem path_of_descend? {position : List Nat}
    (found : forest.descend? start position = some expression) :
    ∃ steps, expression.path = steps ++ start.path ∧
      positionOf steps = position := by
  induction position generalizing start with
  | nil =>
      obtain rfl := Option.some.inj found
      exact ⟨[], rfl, rfl⟩
  | cons index position ih =>
      rw [descend?_cons, getElem?_children] at found
      obtain ⟨child, isChild, below⟩ := Option.bind_eq_some_iff.mp found
      obtain ⟨node, -, rfl⟩ := Option.map_eq_some_iff.mp isChild
      obtain ⟨steps, isPath, rfl⟩ := ih below
      refine ⟨steps ++ [⟨start.node, index⟩], ?_, by simp [positionOf]⟩
      rw [isPath, List.append_assoc]
      rfl

theorem indexPath_of_descend? {position : List Nat}
    (found : forest.descend? start position = some expression) :
    expression.indexPath = start.indexPath ++ position := by
  obtain ⟨steps, isPath, rfl⟩ := path_of_descend? found
  simp [Expression.indexPath, isPath, positionOf]

/-- Following a position from a placed expression leads to a placed one. -/
theorem Places.descend? {position : List Nat} (places : forest.Places start)
    (found : forest.descend? start position = some expression) :
    forest.Places expression ∧ expression.arena = start.arena ∧
      expression.root = start.root ∧
      expression.indexPath = start.indexPath ++ position := by
  induction position generalizing start with
  | nil =>
      obtain rfl := Option.some.inj found
      exact ⟨places, rfl, rfl, (List.append_nil _).symm⟩
  | cons index position ih =>
      have whole := found
      rw [descend?_cons, getElem?_children] at found
      obtain ⟨child, isChild, below⟩ := Option.bind_eq_some_iff.mp found
      obtain ⟨node, isNode, rfl⟩ := Option.map_eq_some_iff.mp isChild
      obtain ⟨childPlaces, arena, root, -⟩ :=
        ih (show forest.Places (start.below index node) from ⟨isNode, places⟩)
          below
      exact ⟨childPlaces, arena, root.trans (Expression.root_below ..),
        indexPath_of_descend? whole⟩

/-- Where the tree has a subtree, an expression is reached, and its tree is that
subtree. -/
theorem map_tree_descend? (wellFormed : forest.WellFormed) (start : Expression)
    (position : List Nat) :
    (forest.descend? start position).map forest.tree =
      (forest.tree start).subtreeAt? position := by
  induction position generalizing start with
  | nil => rfl
  | cons index position ih =>
      rw [descend?_cons, tree_eq wellFormed, Tree.subtreeAt?,
        Tree.children_node, List.getElem?_map]
      cases (forest.children start)[index]? with
      | none => rfl
      | some child => exact ih child

end Forest

/-! ### Left to right -/

namespace Expression

/-- The index paths part, and the left one goes to the earlier child. -/
def Precedes (left right : Expression) : Prop :=
  ∃ (base : List Nat) (i j : Nat), i < j ∧
    base ++ [i] <+: left.indexPath ∧ base ++ [j] <+: right.indexPath

section Precedes

variable {left right leftBelow rightBelow : Expression}

theorem Precedes.below (precedes : left.Precedes right)
    (isLeft : left.indexPath <+: leftBelow.indexPath)
    (isRight : right.indexPath <+: rightBelow.indexPath) :
    leftBelow.Precedes rightBelow := by
  obtain ⟨base, i, j, less, leftParts, rightParts⟩ := precedes
  exact ⟨base, i, j, less, leftParts.trans isLeft, rightParts.trans isRight⟩

theorem Precedes.indexPath_lt (precedes : left.Precedes right) :
    left.indexPath < right.indexPath := by
  obtain ⟨base, i, j, less, ⟨leftRest, isLeft⟩, ⟨rightRest, isRight⟩⟩ := precedes
  rw [← isLeft, ← isRight, List.append_assoc, List.append_assoc]
  exact List.append_left_lt (List.cons_lt_cons_iff.mpr (.inl less))

theorem Precedes.ne (precedes : left.Precedes right) : left ≠ right := by
  rintro rfl
  exact List.lt_irrefl _ precedes.indexPath_lt

end Precedes

end Expression

namespace Forest

variable {forest : Forest} {start expression : Expression}

theorem pairwise_precedes_children (forest : Forest) (expression : Expression) :
    (forest.children expression).Pairwise Expression.Precedes := by
  rw [List.pairwise_iff_getElem]
  intro i j iBound jBound less
  simp only [children, List.getElem_mapIdx]
  exact ⟨expression.indexPath, i, j, less,
    (indexPath_below ..).symm ▸ List.prefix_rfl,
    (indexPath_below ..).symm ▸ List.prefix_rfl⟩

theorem descend?_nil (forest : Forest) (start : Expression) :
    forest.descend? start [] = some start :=
  rfl

/-- An expression strictly below another one has a longer index path. -/
theorem indexPath_lt_of_descend? {position : List Nat}
    (found : forest.descend? start position = some expression)
    (strict : position ≠ []) : start.indexPath < expression.indexPath := by
  obtain ⟨index, rest, rfl⟩ := List.exists_cons_of_ne_nil strict
  rw [indexPath_of_descend? found]
  nth_rewrite 1 [← List.append_nil start.indexPath]
  exact List.append_left_lt (List.nil_lt_cons _ _)

theorem ne_of_descend? {position : List Nat}
    (found : forest.descend? start position = some expression)
    (strict : position ≠ []) : start ≠ expression := by
  rintro rfl
  exact List.lt_irrefl _ (indexPath_lt_of_descend? found strict)

end Forest

end FormulaEngine
