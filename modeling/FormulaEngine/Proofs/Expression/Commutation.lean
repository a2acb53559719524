import FormulaEngine.Proofs.Expression.Navigation

/-!
# Edits that commute

An edit replaces the subtree at the position of the edited node in the tree of
the root and leaves the rest alone.  So edits at positions apart can be made in
either order, although the two orders allocate other nodes; of two edits at one
position the later one stays; and putting a node's own children back changes
nothing.  What an edit takes up in the arena is read off the tree of the root, so
an earlier edit elsewhere does not make a later one larger.
-/

namespace FormulaEngine

namespace Tree

/-- The extent of a new node with a number of children at a position, and of its
new ancestors. -/
def editExtent : Tree → (position : List Nat) → (count : Nat) → Extent
  | tree, [], count => tree.shape.sharingExtent count
  | tree, index :: position, count =>
      tree.shape.sharingExtent tree.children.length +
        tree.children[index]?.elim 0 fun child =>
          child.editExtent position count

theorem editExtent_replaceAt_of_apart {position other : List Nat}
    (apart : Apart position other) (tree replacement : Tree) (count : Nat) :
    (tree.replaceAt position replacement).editExtent other count =
      tree.editExtent other count := by
  induction position generalizing other tree with
  | nil => exact (apart.1 List.nil_prefix).elim
  | cons index position ih =>
      cases other with
      | nil => exact (apart.2 List.nil_prefix).elim
      | cons otherIndex other =>
          simp only [replaceAt, editExtent, shape_node, children_node,
            List.length_modify, List.getElem?_modify]
          congr 1
          by_cases same : index = otherIndex
          · subst same
            have below : Apart position other := by
              simpa [Apart, List.cons_prefix_cons] using apart
            cases tree.children[index]? with
            | none => rfl
            | some child => simp [ih below child]
          · simp [same]

theorem editExtent_replaceAt_self {position : List Nat}
    {tree subtree replacement : Tree}
    (found : tree.subtreeAt? position = some subtree)
    (sameShape : replacement.shape = subtree.shape) (count : Nat) :
    (tree.replaceAt position replacement).editExtent position count =
      tree.editExtent position count := by
  induction position generalizing tree with
  | nil =>
      obtain rfl := Option.some.inj found
      simp only [replaceAt, editExtent, sameShape]
  | cons index position ih =>
      obtain ⟨child, isChild, below⟩ := Option.bind_eq_some_iff.mp found
      simp [replaceAt, editExtent, isChild, ih below]

end Tree

/-- Along a chain, the extent of new ancestors is the one that the tree of the
root tells. -/
theorem Arena.Chain.editExtent_append {arena : Arena} {node : NodeId}
    {path : List Step} (wellFormed : arena.WellFormed)
    (chain : arena.Chain node path) (back : List Nat) (count : Nat) :
    (arena.tree (rootOf node path)).editExtent (positionOf path ++ back) count =
      (arena.tree node).editExtent back count + arena.pathExtent path := by
  induction path generalizing node back with
  | nil => exact (Extent.add_zero _).symm
  | cons step path ih =>
      have below : (arena.tree step.node).editExtent (step.index :: back) count =
          (arena.shape step.node).sharingExtent
              (arena.children step.node).length +
            (arena.tree node).editExtent back count := by
        rw [wellFormed.tree_eq step.node]
        simp [Tree.editExtent, chain.1]
      rw [rootOf, positionOf_cons, List.append_assoc, List.singleton_append,
        ih chain.2, below, Extent.add_comm _ ((arena.tree node).editExtent _ _),
        Extent.add_assoc]
      rfl

namespace Forest

variable {before after : Forest} {expression result root : Expression}
  {children : List Expression} {wanted : Extent}

theorem replacementExtent_eq (wellFormed : before.WellFormed)
    (places : before.Places expression) (children : List Expression) :
    before.replacementExtent expression children =
      before.importsExtent expression.arena children +
        (before.tree expression.root).editExtent expression.indexPath
          children.length := by
  have extent := Arena.Chain.editExtent_append (wellFormed expression.arena)
    places [] children.length
  rw [List.append_nil] at extent
  rw [replacementExtent, root_eq]
  exact congrArg _ extent.symm

/-- New children that fit, in an arena with room for them, replace the old
ones. -/
theorem setChildren_replaces (wellFormed : before.WellFormed)
    (places : before.Places expression)
    (childrenPlaces : ∀ child ∈ children, before.Places child)
    (fits : (before.shape expression).admits children.length)
    (short : children.length ≤ 65535)
    (room : (before.arena expression.arena).extent +
      before.replacementExtent expression children ≤ wanted)
    (enough : wanted.Fits) :
    ∃ result after,
      before.setChildren expression children = .ok (result, after) ∧
        before.Replaces expression children result after := by
  obtain ⟨result, after, run, replaces⟩ := succeeds_of_fits
    (Edit.leads_rebuild wellFormed places childrenPlaces fits room
      (Nat.le_refl 65535) short) enough
  refine ⟨result, after, ?_, replaces⟩
  simp only [setChildren, Edit.outcome, Edit.setChildren_of_admits fits, run]

/-! ### Edits below a root -/

/-- The children at a position below a root are replaced, which makes a new
root. -/
def EditsAt (before : Forest) (root : Expression) (position : List Nat)
    (children : List Expression) (newRoot : Expression) (after : Forest) :
    Prop :=
  ∃ expression result,
    before.descend? root position = some expression ∧
      before.setChildren expression children = .ok (result, after) ∧
      newRoot = result.root

/-- Children are placed and fit the subtree at a position below a root. -/
structure Accepts (forest : Forest) (root : Expression) (position : List Nat)
    (children : List Expression) (subtree : Tree) : Prop where
  found : (forest.tree root).subtreeAt? position = some subtree
  places : ∀ child ∈ children, forest.Places child
  fits : subtree.shape.admits children.length
  short : children.length ≤ 65535

/-- The extent of new children at a position below a root. -/
def editExtent (forest : Forest) (root : Expression) (position : List Nat)
    (children : List Expression) : Extent :=
  forest.importsExtent root.arena children +
    (forest.tree root).editExtent position children.length

/-- What an edit below a root makes of its tree. -/
structure Edited (before : Forest) (root : Expression) (position : List Nat)
    (children : List Expression) (subtree : Tree) (newRoot : Expression)
    (after : Forest) : Prop where
  grows : before.GrowsAt root.arena after
  wellFormed : after.WellFormed
  places : after.Places newRoot
  isRoot : newRoot.isRoot
  arena_eq : newRoot.arena = root.arena
  tree_eq : after.tree newRoot = (before.tree root).replaceAt position
    (.node subtree.shape (children.map before.tree))
  extent_eq : (after.arena root.arena).extent =
    (before.arena root.arena).extent + before.editExtent root position children

theorem isRoot_root (expression : Expression) : expression.root.isRoot := by
  rw [root_eq]
  rfl

theorem root_of_isRoot (isRoot : root.isRoot) : root.root = root := by
  obtain ⟨arena, node, path⟩ := root
  obtain rfl := List.isEmpty_iff.mp isRoot
  rfl

theorem Places.descend?_root {position : List Nat} (places : before.Places root)
    (isRoot : root.isRoot)
    (reached : before.descend? root position = some expression) :
    before.Places expression ∧ expression.arena = root.arena ∧
      expression.root = root ∧ expression.indexPath = position := by
  obtain ⟨placed, arena, ancestor, indexPath⟩ := places.descend? reached
  rw [root_of_isRoot isRoot] at ancestor
  obtain ⟨_, _, path⟩ := root
  obtain rfl := List.isEmpty_iff.mp isRoot
  exact ⟨placed, arena, ancestor, indexPath⟩

theorem editExtent_of_descend? {position : List Nat}
    (wellFormed : before.WellFormed) (places : before.Places root)
    (isRoot : root.isRoot)
    (reached : before.descend? root position = some expression)
    (children : List Expression) :
    before.editExtent root position children =
      before.replacementExtent expression children := by
  obtain ⟨placed, arena, ancestor, indexPath⟩ :=
    places.descend?_root isRoot reached
  rw [replacementExtent_eq wellFormed placed, ancestor, indexPath, arena,
    editExtent]

/-- An edit that is accepted succeeds where there is room for it. -/
theorem Accepts.edits {position : List Nat} {subtree : Tree}
    (accepts : before.Accepts root position children subtree)
    (wellFormed : before.WellFormed) (places : before.Places root)
    (isRoot : root.isRoot)
    (room : (before.arena root.arena).extent +
      before.editExtent root position children ≤ wanted)
    (enough : wanted.Fits) :
    ∃ newRoot after, before.EditsAt root position children newRoot after ∧
      before.Edited root position children subtree newRoot after := by
  have found := accepts.found
  rw [← map_tree_descend? wellFormed] at found
  obtain ⟨expression, reached, rfl⟩ := Option.map_eq_some_iff.mp found
  obtain ⟨placed, arena, ancestor, indexPath⟩ :=
    places.descend?_root isRoot reached
  have extent := editExtent_of_descend? wellFormed places isRoot reached children
  obtain ⟨result, after, run, replaces⟩ := setChildren_replaces wellFormed placed
    accepts.places accepts.fits accepts.short (by rwa [arena, ← extent]) enough
  have grows := replaces.produces.grows
  have grown := replaces.extent_eq
  have rootTree := replaces.tree_root wellFormed placed
  rw [replaces.arena_eq, arena] at grows
  rw [arena, ← extent] at grown
  rw [ancestor, indexPath, replaces.produces.tree_eq] at rootTree
  refine ⟨result.root, after, ⟨expression, result, reached, run, rfl⟩, grows,
    replaces.produces.wellFormed, replaces.produces.places.root,
    isRoot_root result, ?_, rootTree, grown⟩
  rw [root_eq]
  exact replaces.arena_eq.trans arena

/-- An edit at a position apart is accepted as before. -/
theorem Accepts.after_edit {first second : List Nat}
    {others : List Expression} {firstTree secondTree : Tree}
    {newRoot : Expression}
    (accepts : before.Accepts root second children secondTree)
    (apart : Tree.Apart first second) (wellFormed : before.WellFormed)
    (edited : before.Edited root first others firstTree newRoot after) :
    after.Accepts newRoot second children secondTree where
  found := by
    rw [edited.tree_eq, Tree.subtreeAt?_replaceAt_of_apart apart]
    exact accepts.found
  places child isChild :=
    edited.grows.places wellFormed (accepts.places child isChild)
  fits := accepts.fits
  short := accepts.short

/-- Of two edits at positions apart, each replaces its subtree. -/
theorem Accepts.edits_both {first second : List Nat}
    {others : List Expression} {firstTree secondTree : Tree}
    (acceptsFirst : before.Accepts root first others firstTree)
    (acceptsSecond : before.Accepts root second children secondTree)
    (apart : Tree.Apart first second) (wellFormed : before.WellFormed)
    (places : before.Places root) (isRoot : root.isRoot)
    (room : (before.arena root.arena).extent +
      (before.editExtent root first others +
        before.editExtent root second children) ≤ wanted)
    (enough : wanted.Fits) :
    ∃ middleRoot middle newRoot after,
      before.EditsAt root first others middleRoot middle ∧
        middle.EditsAt middleRoot second children newRoot after ∧
        after.tree newRoot =
          ((before.tree root).replaceAt first
            (.node firstTree.shape (others.map before.tree))).replaceAt second
              (.node secondTree.shape (children.map before.tree)) := by
  rw [← Extent.add_assoc] at room
  obtain ⟨middleRoot, middle, firstEdit, edited⟩ := acceptsFirst.edits wellFormed
    places isRoot (Extent.le_of_add_le room) enough
  have extent : middle.editExtent middleRoot second children =
      before.editExtent root second children := by
    rw [editExtent, editExtent, edited.arena_eq, edited.grows.importsExtent,
      edited.tree_eq, Tree.editExtent_replaceAt_of_apart apart]
  obtain ⟨newRoot, after, secondEdit, editedAgain⟩ :=
    (acceptsSecond.after_edit apart wellFormed edited).edits edited.wellFormed
      edited.places edited.isRoot
      (by rwa [extent, edited.arena_eq, edited.extent_eq]) enough
  have sameTrees : children.map middle.tree = children.map before.tree :=
    List.map_congr_left fun child isChild => edited.grows.tree wellFormed
      edited.wellFormed (acceptsSecond.places child isChild)
  refine ⟨middleRoot, middle, newRoot, after, firstEdit, secondEdit, ?_⟩
  rw [editedAgain.tree_eq, edited.tree_eq, sameTrees]

/-! ### Edits of one expression -/

/-- New children take up as much after an edit of the same expression as they
would have before. -/
theorem Replaces.replacementExtent_eq
    (replaces : before.Replaces expression children result after)
    (wellFormed : before.WellFormed) (places : before.Places expression)
    (others : List Expression) :
    after.replacementExtent result others =
      before.replacementExtent expression others := by
  have grows := replaces.produces.grows
  have found := places.subtreeAt?_indexPath wellFormed
  have sameShape : (after.tree result).shape = (before.tree expression).shape :=
    replaces.produces.shape_eq
  rw [Forest.replacementExtent_eq replaces.produces.wellFormed
      replaces.produces.places, Forest.replacementExtent_eq wellFormed places,
    grows.importsExtent, replaces.arena_eq, replaces.indexPath_eq,
    replaces.tree_root wellFormed places,
    Tree.editExtent_replaceAt_self found sameShape]

/-- Of two edits of one expression the later one stays. -/
theorem setChildren_twice {others : List Expression}
    (wellFormed : before.WellFormed) (places : before.Places expression)
    (childrenPlaces : ∀ child ∈ children ++ others, before.Places child)
    (fits : (before.shape expression).admits children.length)
    (othersFit : (before.shape expression).admits others.length)
    (short : children.length ≤ 65535) (othersShort : others.length ≤ 65535)
    (room : (before.arena expression.arena).extent +
      (before.replacementExtent expression children +
        before.replacementExtent expression others) ≤ wanted)
    (enough : wanted.Fits) :
    ∃ first middle second after,
      before.setChildren expression children = .ok (first, middle) ∧
        middle.setChildren first others = .ok (second, after) ∧
        after.tree second =
          .node (before.shape expression) (others.map before.tree) ∧
        after.tree second.root =
          (before.tree expression.root).replaceAt expression.indexPath
            (after.tree second) := by
  rw [← Extent.add_assoc] at room
  obtain ⟨first, middle, run, replaces⟩ := setChildren_replaces wellFormed places
    (fun child isChild => childrenPlaces child (by simp [isChild])) fits short
    (Extent.le_of_add_le room) enough
  have grows := replaces.produces.grows
  have middleWellFormed := replaces.produces.wellFormed
  have sameShape : middle.shape first = before.shape expression :=
    replaces.produces.shape_eq
  have othersPlaces (child : Expression) (isChild : child ∈ others) :
      before.Places child :=
    childrenPlaces child (by simp [isChild])
  obtain ⟨second, after, runAgain, replacesAgain⟩ := setChildren_replaces
    middleWellFormed replaces.produces.places
    (fun child isChild => grows.places wellFormed (othersPlaces child isChild))
    (by rwa [sameShape]) othersShort
    (by
      rwa [replaces.replacementExtent_eq wellFormed places, replaces.arena_eq,
        replaces.extent_eq])
    enough
  have sameTrees : others.map middle.tree = others.map before.tree :=
    List.map_congr_left fun child isChild =>
      grows.tree wellFormed middleWellFormed (othersPlaces child isChild)
  refine ⟨first, middle, second, after, run, runAgain, ?_, ?_⟩
  · rw [replacesAgain.produces.tree_eq, sameShape, sameTrees]
  · rw [replacesAgain.tree_root middleWellFormed replaces.produces.places,
      replaces.tree_root wellFormed places, replaces.indexPath_eq,
      Tree.replaceAt_replaceAt]

theorem admits_children (forest : Forest) (expression : Expression) :
    (forest.shape expression).admits (forest.children expression).length := by
  rw [children, List.length_mapIdx]
  exact Arena.admits_children _ _

theorem length_children_le (forest : Forest) (expression : Expression) :
    (forest.children expression).length ≤ 65535 := by
  rw [children, List.length_mapIdx]
  exact Arena.length_children_le _ _

/-- Putting an expression's own children back changes no tree. -/
theorem setChildren_children (wellFormed : before.WellFormed)
    (places : before.Places expression)
    (room : (before.arena expression.arena).extent +
      before.replacementExtent expression (before.children expression) ≤ wanted)
    (enough : wanted.Fits) :
    ∃ result after,
      before.setChildren expression (before.children expression) =
          .ok (result, after) ∧
        after.tree result = before.tree expression ∧
        after.tree result.root = before.tree expression.root := by
  obtain ⟨result, after, run, replaces⟩ := setChildren_replaces wellFormed places
    (fun _ => places.of_mem_children) (before.admits_children expression)
    (before.length_children_le expression) room enough
  have same : after.tree result = before.tree expression := by
    rw [replaces.produces.tree_eq, ← Forest.tree_eq wellFormed]
  refine ⟨result, after, run, same, ?_⟩
  rw [replaces.tree_root wellFormed places, same,
    Tree.replaceAt_self (places.subtreeAt?_indexPath wellFormed)]

end Forest

namespace Session

variable {session : Session}

/-- Held children fit an expression. -/
structure Suits (session : Session) (expression : Expression)
    (children : List Expression) : Prop where
  held : ∀ child ∈ children, child ∈ session.held
  fits : (session.forest.shape expression).admits children.length
  short : children.length ≤ 65535

theorem Suits.accepts {root expression : Expression} {position : List Nat}
    {children : List Expression} (suits : session.Suits expression children)
    (valid : session.Valid)
    (reached : session.forest.descend? root position = some expression) :
    session.forest.Accepts root position children
      (session.forest.tree expression) where
  found := by
    rw [← Forest.map_tree_descend? valid.wellFormed, reached]
    rfl
  places child isChild := valid.places child (suits.held child isChild)
  fits := suits.fits
  short := suits.short

/-- Edits at positions apart below a held root commute: where there is room for
both, either order succeeds and makes a root of the same tree.  Of two edits of
one expression the later one alone shows, and putting the children of an
expression back leaves its tree and that of its root as they were. -/
theorem Reachable.edits_commute (reachable : session.Reachable) :
    (∀ {root atFirst atSecond : Expression} {first second : List Nat}
        {children others : List Expression},
      root ∈ session.held → root.isRoot → Tree.Apart first second →
      session.forest.descend? root first = some atFirst →
      session.forest.descend? root second = some atSecond →
      session.Suits atFirst children → session.Suits atSecond others →
      ((session.forest.arena root.arena).extent +
        (session.forest.replacementExtent atFirst children +
          session.forest.replacementExtent atSecond others)).Fits →
      ∃ firstRoot firstForest newRoot newForest
          secondRoot secondForest otherRoot otherForest,
        session.forest.EditsAt root first children firstRoot firstForest ∧
          firstForest.EditsAt firstRoot second others newRoot newForest ∧
          session.forest.EditsAt root second others secondRoot secondForest ∧
          secondForest.EditsAt secondRoot first children otherRoot otherForest ∧
          newForest.tree newRoot = otherForest.tree otherRoot) ∧
    (∀ {expression : Expression} {children others : List Expression},
      expression ∈ session.held →
      session.Suits expression children → session.Suits expression others →
      ((session.forest.arena expression.arena).extent +
        (session.forest.replacementExtent expression children +
          session.forest.replacementExtent expression others)).Fits →
      ∃ early middle late after alone other,
        session.forest.setChildren expression children = .ok (early, middle) ∧
          middle.setChildren early others = .ok (late, after) ∧
          session.forest.setChildren expression others = .ok (alone, other) ∧
          after.tree late = other.tree alone ∧
          after.tree late.root = other.tree alone.root) ∧
    (∀ expression ∈ session.held,
      ((session.forest.arena expression.arena).extent +
        session.forest.replacementExtent expression
          (session.forest.children expression)).Fits →
      ∃ result after,
        session.forest.setChildren expression
            (session.forest.children expression) = .ok (result, after) ∧
          after.tree result = session.forest.tree expression ∧
          after.tree result.root = session.forest.tree expression.root) := by
  have valid := reachable.valid
  have wellFormed := valid.wellFormed
  refine ⟨?_, ?_, ?_⟩
  · intro root atFirst atSecond first second children others held isRoot apart
      reachedFirst reachedSecond suitsFirst suitsSecond enough
    have places := valid.places root held
    have acceptsFirst := suitsFirst.accepts valid reachedFirst
    have acceptsSecond := suitsSecond.accepts valid reachedSecond
    rw [← Forest.editExtent_of_descend? wellFormed places isRoot reachedFirst,
      ← Forest.editExtent_of_descend? wellFormed places isRoot reachedSecond]
      at enough
    obtain ⟨firstRoot, firstForest, newRoot, newForest, firstEdit, secondEdit,
      tree⟩ := acceptsFirst.edits_both acceptsSecond apart wellFormed places isRoot
        (Extent.le_refl _) enough
    rw [Extent.add_comm (session.forest.editExtent ..)] at enough
    obtain ⟨secondRoot, secondForest, otherRoot, otherForest, secondAlone,
      firstAfter, otherTree⟩ := acceptsSecond.edits_both acceptsFirst apart.symm
        wellFormed places isRoot (Extent.le_refl _) enough
    refine ⟨firstRoot, firstForest, newRoot, newForest, secondRoot, secondForest,
      otherRoot, otherForest, firstEdit, secondEdit, secondAlone, firstAfter, ?_⟩
    rw [tree, otherTree, Tree.replaceAt_comm apart]
  · intro expression children others held suits othersSuit enough
    have places := valid.places expression held
    obtain ⟨early, middle, late, after, run, runAgain, lateTree, lateRoot⟩ :=
      Forest.setChildren_twice wellFormed places
        (fun child member => valid.places child
          ((List.mem_append.mp member).elim (suits.held child)
            (othersSuit.held child)))
        suits.fits othersSuit.fits suits.short othersSuit.short
        (Extent.le_refl _) enough
    rw [Extent.add_comm (session.forest.replacementExtent expression children),
      ← Extent.add_assoc] at enough
    obtain ⟨alone, other, runAlone, replaces⟩ := Forest.setChildren_replaces
      wellFormed places
      (fun child isChild => valid.places child (othersSuit.held child isChild))
      othersSuit.fits othersSuit.short
      (Extent.le_of_add_le (Extent.le_refl _)) enough
    have sameTree : after.tree late = other.tree alone :=
      lateTree.trans replaces.produces.tree_eq.symm
    refine ⟨early, middle, late, after, alone, other, run, runAgain, runAlone,
      sameTree, ?_⟩
    rw [lateRoot, replaces.tree_root wellFormed places, sameTree]
  · intro expression held enough
    exact Forest.setChildren_children wellFormed (valid.places expression held)
      (Extent.le_refl _) enough

/-- A caller has built a call whose two arguments are one negation, and a name in
another arena. -/
def sharedNegation : Session :=
  let negation := Expression.atRoot 0 ⟨1⟩
  start
    |>.operate (.build 0 (.value (.bool true)))
    |>.operate (.build 0 (.unary .not (.atRoot 0 ⟨0⟩)))
    |>.operate (.build 0 (.call ⟨"any"⟩ [negation, negation]))
    |>.operate (.build 1 (.reference ⟨"x"⟩))

theorem reachable_sharedNegation : sharedNegation.Reachable := by
  unfold sharedNegation
  refine .move (.move (.move (.move .start (.operate _ ?_)) (.operate _ ?_))
    (.operate _ ?_)) (.operate _ ?_)
  all_goals decide +kernel

theorem edits_commute_sharedNegation :
    let root := Expression.atRoot 0 ⟨2⟩
    let foreign := Expression.atRoot 1 ⟨0⟩
    (sharedNegation.forest.arena 0).children root.node = [⟨1⟩, ⟨1⟩] ∧
      (∃ firstRoot firstForest newRoot newForest
          secondRoot secondForest otherRoot otherForest,
        sharedNegation.forest.EditsAt root [0] [foreign] firstRoot firstForest ∧
          firstForest.EditsAt firstRoot [1] [root] newRoot newForest ∧
          sharedNegation.forest.EditsAt root [1] [root] secondRoot
            secondForest ∧
          secondForest.EditsAt secondRoot [0] [foreign] otherRoot otherForest ∧
          newForest.tree newRoot = otherForest.tree otherRoot) ∧
      (∃ early middle late after alone other,
        sharedNegation.forest.setChildren root [root] = .ok (early, middle) ∧
          middle.setChildren early [foreign] = .ok (late, after) ∧
          sharedNegation.forest.setChildren root [foreign] =
            .ok (alone, other) ∧
          after.tree late = other.tree alone) ∧
      ∃ result after,
        sharedNegation.forest.setChildren root
            (sharedNegation.forest.children root) = .ok (result, after) ∧
          after.tree result = sharedNegation.forest.tree root := by
  intro root foreign
  have commutes := Reachable.edits_commute reachable_sharedNegation
  have rootHeld : root ∈ sharedNegation.held := by decide +kernel
  have foreignHeld : foreign ∈ sharedNegation.held := by decide +kernel
  have suits {expression child : Expression}
      (held : child ∈ sharedNegation.held)
      (fits : (sharedNegation.forest.shape expression).admits 1) :
      sharedNegation.Suits expression [child] :=
    ⟨by simpa using held, fits, by simp⟩
  refine ⟨by decide +kernel, ?_, ?_, ?_⟩
  · apply commutes.1 rootHeld rfl (by unfold Tree.Apart; decide) rfl rfl
      (suits foreignHeld (by decide +kernel)) (suits rootHeld (by decide +kernel))
    unfold Extent.Fits
    decide +kernel
  · obtain ⟨early, middle, late, after, alone, other, run, runAgain, runAlone,
      same, -⟩ := commutes.2.1 rootHeld (suits rootHeld (by decide +kernel))
        (suits foreignHeld (by decide +kernel))
        (by unfold Extent.Fits; decide +kernel)
    exact ⟨early, middle, late, after, alone, other, run, runAgain, runAlone,
      same⟩
  · obtain ⟨result, after, run, same, -⟩ := commutes.2.2 root rootHeld
      (by unfold Extent.Fits; decide +kernel)
    exact ⟨result, after, run, same⟩

end Session

end FormulaEngine
