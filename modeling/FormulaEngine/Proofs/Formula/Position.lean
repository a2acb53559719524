import FormulaEngine.Formula.Shape

/-!
# Positions in trees

A position is a list of child indexes that leads from the root of a tree to one
of its subtrees.  Replacing the subtree at a position changes what lies at it,
above it and below it, and nothing else.  In the post-order of positions those
below a child come before those below a later child and before the root.
-/

namespace FormulaEngine

namespace Tree

/-- The subtree at a position, if there is one. -/
def subtreeAt? : Tree → (position : List Nat) → Option Tree
  | tree, [] => some tree
  | tree, index :: position =>
      tree.children[index]?.bind fun child => child.subtreeAt? position

mutual

/-- The positions in a tree, in post-order. -/
def positions : Tree → List (List Nat)
  | node _ children => positionsFrom 0 children ++ [[]]

/-- The positions in children whose indexes start at a number, in post-order. -/
def positionsFrom : (index : Nat) → List Tree → List (List Nat)
  | _, [] => []
  | index, child :: children =>
      child.positions.map (index :: ·) ++ positionsFrom (index + 1) children

end

/-- Put a replacement in the place of the subtree at a position. -/
def replaceAt : Tree → (position : List Nat) → (replacement : Tree) → Tree
  | _, [], replacement => replacement
  | tree, index :: position, replacement =>
      .node tree.shape (tree.children.modify index fun child =>
        child.replaceAt position replacement)

@[simp]
theorem shape_node (shape : Shape) (children : List Tree) :
    (node shape children).shape = shape :=
  rfl

@[simp]
theorem children_node (shape : Shape) (children : List Tree) :
    (node shape children).children = children :=
  rfl

theorem subtreeAt?_append (front back : List Nat) (tree : Tree) :
    tree.subtreeAt? (front ++ back) =
      (tree.subtreeAt? front).bind fun subtree => subtree.subtreeAt? back := by
  induction front generalizing tree with
  | nil => rfl
  | cons index front ih =>
      simp only [List.cons_append, subtreeAt?, Option.bind_assoc]
      congr 1
      funext child
      exact ih child

/-- Replacing inside the subtree at a position is replacing deeper down. -/
theorem replaceAt_append {front : List Nat} {tree subtree : Tree}
    (found : tree.subtreeAt? front = some subtree) (back : List Nat)
    (replacement : Tree) :
    tree.replaceAt (front ++ back) replacement =
      tree.replaceAt front (subtree.replaceAt back replacement) := by
  induction front generalizing tree with
  | nil =>
      obtain rfl := Option.some.inj found
      rfl
  | cons index front ih =>
      obtain ⟨child, isChild, found⟩ := Option.bind_eq_some_iff.mp found
      simp only [List.cons_append, replaceAt]
      congr 1
      apply List.ext_getElem?
      intro other
      simp only [List.getElem?_modify]
      by_cases same : index = other
      · subst same
        simp [isChild, ih found]
      · simp [same]

/-- Two positions are apart when neither leads through the other. -/
def Apart (first second : List Nat) : Prop :=
  ¬ first <+: second ∧ ¬ second <+: first

/-- What lies apart from the position stays. -/
theorem subtreeAt?_replaceAt_of_apart {position other : List Nat}
    (apart : Apart position other) (tree replacement : Tree) :
    (tree.replaceAt position replacement).subtreeAt? other =
      tree.subtreeAt? other := by
  induction position generalizing other tree with
  | nil => exact (apart.1 List.nil_prefix).elim
  | cons index position ih =>
      cases other with
      | nil => exact (apart.2 List.nil_prefix).elim
      | cons otherIndex other =>
          simp only [replaceAt, subtreeAt?, children_node, List.getElem?_modify]
          by_cases same : index = otherIndex
          · subst same
            have below : Apart position other := by
              simpa [Apart, List.cons_prefix_cons] using apart
            cases tree.children[index]? with
            | none => rfl
            | some child => simp [ih below child]
          · simp [same]

/-- Replacements at positions apart can be made in either order. -/
theorem replaceAt_comm {first second : List Nat} (apart : Apart first second)
    (tree atFirst atSecond : Tree) :
    (tree.replaceAt first atFirst).replaceAt second atSecond =
      (tree.replaceAt second atSecond).replaceAt first atFirst := by
  induction first generalizing second tree with
  | nil => exact (apart.1 List.nil_prefix).elim
  | cons index first ih =>
      cases second with
      | nil => exact (apart.2 List.nil_prefix).elim
      | cons otherIndex second =>
          simp only [replaceAt, children_node, shape_node]
          congr 1
          by_cases same : index = otherIndex
          · subst same
            have below : Apart first second := by
              simpa [Apart, List.cons_prefix_cons] using apart
            rw [List.modify_modify_eq, List.modify_modify_eq]
            congr 1
            funext child
            exact ih below child
          · exact List.modify_modify_ne _ _ _ same

/-- Of two replacements at one position the later one stays. -/
theorem replaceAt_replaceAt (position : List Nat) (tree early late : Tree) :
    (tree.replaceAt position early).replaceAt position late =
      tree.replaceAt position late := by
  induction position generalizing tree with
  | nil => rfl
  | cons index position ih =>
      simp only [replaceAt, children_node, shape_node, List.modify_modify_eq]
      congr 2
      funext child
      exact ih child

/-- Replacing a subtree by itself changes nothing. -/
theorem replaceAt_self {position : List Nat} {tree subtree : Tree}
    (found : tree.subtreeAt? position = some subtree) :
    tree.replaceAt position subtree = tree := by
  induction position generalizing tree with
  | nil => exact (Option.some.inj found).symm
  | cons index position ih =>
      obtain ⟨shape, children⟩ := tree
      obtain ⟨child, isChild, below⟩ := Option.bind_eq_some_iff.mp found
      simp only [replaceAt, children_node, shape_node] at isChild ⊢
      congr 1
      apply List.ext_getElem?
      intro other
      rw [List.getElem?_modify]
      by_cases same : index = other
      · subst same
        simp [isChild, ih below]
      · simp [same]

end Tree

end FormulaEngine
