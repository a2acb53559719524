import FormulaEngine.Proofs.Arena.Occurrence
import FormulaEngine.Proofs.Expression.Correspondence
import FormulaEngine.Proofs.Expression.Session

/-!
# Building and reading trees

A tree is built bottom-up: its children, left to right, and then its root over
them.  Every step appends one node, so the nodes are numbered in post-order, and
reading the result back, node by node, shows the tree that was built.
-/

namespace FormulaEngine

open Stateful

namespace Tree

/-- A tree can be stored: every shape fits its children, and no list is too long
for a range. -/
inductive Storable : Tree → Prop
  | node {shape : Shape} {children : List Tree}
      (fits : shape.admits children.length) (short : children.length ≤ 65535)
      (shortParameters : ∀ parameters, shape = .lambda parameters →
        parameters.length ≤ 65535)
      (below : ∀ child ∈ children, Storable child) :
      Storable (node shape children)

theorem storable_node {shape : Shape} {children : List Tree} :
    (node shape children).Storable ↔
      shape.admits children.length ∧ children.length ≤ 65535 ∧
        (∀ parameters, shape = .lambda parameters →
          parameters.length ≤ 65535) ∧
        ∀ child ∈ children, child.Storable :=
  ⟨fun ⟨fits, short, shortParameters, below⟩ =>
    ⟨fits, short, shortParameters, below⟩,
    fun ⟨fits, short, shortParameters, below⟩ =>
      ⟨fits, short, shortParameters, below⟩⟩

mutual

/-- The extent of a tree that shares nothing. -/
def extent : Tree → Extent
  | node shape children => extents children + shape.extent children.length

/-- The extent of trees that share nothing. -/
def extents : List Tree → Extent
  | [] => 0
  | tree :: trees => tree.extent + extents trees

end

@[simp]
theorem extents_singleton (tree : Tree) : extents [tree] = tree.extent :=
  Extent.add_zero _

mutual

/-- Every position takes up one node. -/
theorem nodes_extent : (tree : Tree) →
    tree.extent.nodes = tree.positions.length
  | node shape children => by
      rw [extent, Extent.nodes_add, Shape.nodes_extent, positions,
        nodes_extents children 0, List.length_append]
      rfl

theorem nodes_extents : (trees : List Tree) → (index : Nat) →
    (extents trees).nodes = (positionsFrom index trees).length
  | [], _ => rfl
  | tree :: trees, index => by
      rw [extents, Extent.nodes_add, positionsFrom, List.length_append,
        List.length_map, nodes_extent tree, nodes_extents trees (index + 1)]

end

end Tree

namespace Edit

mutual

/-- Build a tree in an arena, children before their parents. -/
def plant (index : Nat) : Tree → Edit Expression
  | .node shape children => do
      let operands ← plantAll index children
      build index shape operands

/-- Build trees in an arena, left to right. -/
def plantAll (index : Nat) : List Tree → Edit (List Expression)
  | [] => return []
  | tree :: trees => do
      let expression ← plant index tree
      let expressions ← plantAll index trees
      return expression :: expressions

end

end Edit

namespace Forest

variable {before middle after : Forest} {index : Nat}

/-! ### Reading -/

mutual

/-- Looking at an expression, and at what its node is made of, shows a tree. -/
def Reads (forest : Forest) (expression : Expression) : Tree → Prop
  | .node shape children =>
      (forest.node expression).shape = shape ∧
        forest.ReadsAll (forest.node expression).children children

/-- Looking at expressions, one by one, shows trees. -/
def ReadsAll (forest : Forest) : List Expression → List Tree → Prop
  | [], [] => True
  | expression :: expressions, tree :: trees =>
      forest.Reads expression tree ∧ forest.ReadsAll expressions trees
  | _, _ => False

end

mutual

/-- What is read is the tree of an expression. -/
theorem reads_iff {forest : Forest} (wellFormed : forest.WellFormed)
    (expression : Expression) : (tree : Tree) →
      (forest.Reads expression tree ↔ forest.tree expression = tree)
  | .node shape children => by
      rw [Reads, readsAll_iff wellFormed, tree_eq wellFormed, Tree.node.injEq,
        shape_node, children_node]

theorem readsAll_iff {forest : Forest} (wellFormed : forest.WellFormed) :
    (expressions : List Expression) → (trees : List Tree) →
      (forest.ReadsAll expressions trees ↔ expressions.map forest.tree = trees)
  | [], [] => by simp [ReadsAll]
  | [], _ :: _ => by simp [ReadsAll]
  | _ :: _, [] => by simp [ReadsAll]
  | expression :: expressions, tree :: trees => by
      rw [ReadsAll, reads_iff wellFormed expression tree,
        readsAll_iff wellFormed expressions trees, List.map_cons,
        List.cons.injEq]

end

/-! ### Building -/

/-- Trees are built in an arena: the results are the roots of trees of their own,
and their nodes, in post-order, are the ones that have been appended. -/
structure Plants (before : Forest) (index : Nat) (trees : List Tree)
    (results : List Expression) (after : Forest) : Prop where
  grows : before.GrowsAt index after
  wellFormed : after.WellFormed
  atRoot : ∀ result ∈ results, result = .atRoot index result.node
  places : ∀ result ∈ results, after.Places result
  trees_eq : results.map after.tree = trees
  extent_eq : (after.arena index).extent =
    (before.arena index).extent + Tree.extents trees
  occurrences_eq :
    (results.flatMap fun result =>
        (after.arena index).occurrences result.node) =
      (List.range' (before.arena index).size (Tree.extents trees).nodes).map
        NodeId.ofIndex

namespace Plants

theorem nil (wellFormed : before.WellFormed) :
    before.Plants index [] [] before where
  grows := refl_of _ _
  wellFormed := wellFormed
  atRoot := by simp
  places := by simp
  trees_eq := rfl
  extent_eq := (Extent.add_zero _).symm
  occurrences_eq := rfl

theorem size_eq {trees : List Tree} {results : List Expression}
    (plants : before.Plants index trees results after) :
    (after.arena index).size =
      (before.arena index).size + (Tree.extents trees).nodes :=
  congrArg Extent.nodes plants.extent_eq

theorem own {trees : List Tree} {results : List Expression}
    (plants : before.Plants index trees results after) :
    ∀ result ∈ results, result.arena = index :=
  fun result member => congrArg Expression.arena (plants.atRoot result member)

theorem occurrences_of_grows {trees : List Tree} {results : List Expression}
    (plants : before.Plants index trees results middle)
    (grows : middle.GrowsAt index after) (wellFormed : after.WellFormed) :
    (results.flatMap fun result =>
        (after.arena index).occurrences result.node) =
      (List.range' (before.arena index).size (Tree.extents trees).nodes).map
        NodeId.ofIndex := by
  rw [← plants.occurrences_eq]
  apply List.flatMap_congr
  intro result member
  have inside := (plants.places result member).contains plants.wellFormed
  rw [plants.own result member] at inside
  exact grows.grows.occurrences (plants.wellFormed index) (wellFormed index)
    inside

theorem cons {tree : Tree} {trees : List Tree} {result : Expression}
    {results : List Expression}
    (first : before.Plants index [tree] [result] middle)
    (rest : middle.Plants index trees results after) :
    before.Plants index (tree :: trees) (result :: results) after where
  grows := trans_of _ first.grows rest.grows
  wellFormed := rest.wellFormed
  atRoot := List.forall_mem_cons.mpr
    ⟨first.atRoot result (by simp), rest.atRoot⟩
  places := List.forall_mem_cons.mpr
    ⟨rest.grows.places first.wellFormed (first.places result (by simp)),
      rest.places⟩
  trees_eq := by
    have tree_eq := List.singleton_inj.mp first.trees_eq
    rw [List.map_cons, rest.trees_eq, ← tree_eq,
      rest.grows.tree first.wellFormed rest.wellFormed
        (first.places result (by simp))]
  extent_eq := by
    rw [rest.extent_eq, first.extent_eq, Tree.extents_singleton,
      Extent.add_assoc, Tree.extents]
  occurrences_eq := by
    have early := first.occurrences_of_grows rest.grows rest.wellFormed
    rw [List.flatMap_singleton] at early
    have size := first.size_eq
    rw [Tree.extents_singleton] at early size
    -- The later trees are numbered from where the first one ends.
    rw [List.flatMap_cons, early, rest.occurrences_eq, size, ← List.map_append,
      List.range'_append_1, Tree.extents, Extent.nodes_add]

end Plants

theorem importsExtent_own {forest : Forest} {expressions : List Expression}
    (own : ∀ expression ∈ expressions, expression.arena = index) :
    forest.importsExtent index expressions = 0 := by
  induction expressions with
  | nil => rfl
  | cons expression expressions ih =>
      obtain ⟨first, rest⟩ := List.forall_mem_cons.mp own
      have below := ih rest
      rw [importsExtent] at below ⊢
      rw [List.map_cons, List.sum_cons, importExtent, if_pos first, below]
      rfl

theorem nodes_of_adopts {expressions : List Expression} {ids : List NodeId}
    (adopts : List.Forall₂ (fun expression id =>
      before.Adopts index expression id after) expressions ids)
    (own : ∀ expression ∈ expressions, expression.arena = index) :
    ids = expressions.map Expression.node := by
  induction adopts with
  | nil => rfl
  | cons first _ ih =>
      obtain ⟨ownFirst, ownRest⟩ := List.forall_mem_cons.mp own
      rw [List.map_cons, first.kept ownFirst, ih ownRest]

section Builds

variable {shape : Shape} {operands : List Expression} {result : Expression}

theorem Builds.grows (built : before.Builds index shape operands result after) :
    before.GrowsAt index after := by
  have arena : result.arena = index := congrArg Expression.arena built.atRoot
  simpa only [arena] using built.produces.grows

theorem Builds.extent_own
    (built : before.Builds index shape operands result after)
    (own : ∀ operand ∈ operands, operand.arena = index) :
    (after.arena index).extent =
      (before.arena index).extent + shape.extent operands.length := by
  rw [built.extent_eq, buildExtent, importsExtent_own own, Extent.zero_add]

/-- A node over expressions of its own arena is the next one. -/
theorem Builds.node_own
    (built : before.Builds index shape operands result after)
    (own : ∀ operand ∈ operands, operand.arena = index) :
    result.node = NodeId.ofIndex (before.arena index).size := by
  have size := congrArg Extent.nodes (built.extent_own own)
  rw [Extent.nodes_add, Shape.nodes_extent] at size
  have latest : result.node.index = (before.arena index).size :=
    Nat.succ_inj.mp (built.latest.trans size)
  rw [← latest, NodeId.ofIndex_index]

theorem Builds.children_own
    (built : before.Builds index shape operands result after)
    (own : ∀ operand ∈ operands, operand.arena = index) :
    (after.arena index).children result.node =
      operands.map Expression.node := by
  have arena : result.arena = index := congrArg Expression.arena built.atRoot
  have adopts := built.produces.adopts
  rw [arena] at adopts
  exact nodes_of_adopts adopts own

/-- A root over expressions that have been built completes a tree. -/
theorem Plants.build {children : List Tree}
    (plants : before.Plants index children operands middle)
    (built : middle.Builds index shape operands result after) :
    before.Plants index [.node shape children] [result] after where
  grows := trans_of _ plants.grows built.grows
  wellFormed := built.produces.wellFormed
  atRoot := List.forall_mem_singleton.mpr built.atRoot
  places := List.forall_mem_singleton.mpr built.produces.places
  trees_eq := by
    rw [List.map_singleton, built.produces.tree_eq, plants.trees_eq]
  extent_eq := by
    have count : operands.length = children.length := by
      rw [← plants.trees_eq, List.length_map]
    rw [built.extent_own plants.own, plants.extent_eq, count, Extent.add_assoc,
      Tree.extents_singleton, Tree.extent]
  occurrences_eq := by
    have below := plants.occurrences_of_grows built.grows
      built.produces.wellFormed
    -- The root comes after all that is below it, and has the next number.
    rw [List.flatMap_singleton,
      (built.produces.wellFormed index).occurrences_eq,
      built.children_own plants.own, List.flatMap_map, below,
      built.node_own plants.own, plants.size_eq, Tree.extents_singleton,
      Tree.extent, Extent.nodes_add, Shape.nodes_extent,
      List.range'_1_concat, List.map_append]
    rfl

end Builds

end Forest

namespace Edit

open Forest

variable {before : Forest} {index : Nat} {wanted : Extent}

theorem leads_plantAll {trees : List Tree}
    (one : ∀ tree ∈ trees, ∀ before : Forest, before.WellFormed →
      (before.arena index).extent + tree.extent ≤ wanted →
        Leads (plant index tree) before
          (fun result after => before.Plants index [tree] [result] after)
          (Exhausts wanted 65535))
    (wellFormed : before.WellFormed)
    (room : (before.arena index).extent + Tree.extents trees ≤ wanted) :
    Leads (plantAll index trees) before (before.Plants index trees)
      (Exhausts wanted 65535) := by
  induction trees generalizing before with
  | nil => exact leads_pure (.nil wellFormed)
  | cons tree trees ih =>
      obtain ⟨oneFirst, oneRest⟩ := List.forall_mem_cons.mp one
      rw [Tree.extents, ← Extent.add_assoc] at room
      rw [plantAll]
      apply leads_bind (oneFirst before wellFormed (Extent.le_of_add_le room))
      intro result middle first
      have extent := first.extent_eq
      rw [Tree.extents_singleton] at extent
      apply leads_bind (ih oneRest first.wellFormed (by rwa [extent]))
      intro results after rest
      exact leads_pure (first.cons rest)

/-- A tree that can be stored is built wherever there is room for it. -/
theorem leads_plant {tree : Tree} (storable : tree.Storable)
    (wellFormed : before.WellFormed)
    (room : (before.arena index).extent + tree.extent ≤ wanted) :
    Leads (plant index tree) before
      (fun result after => before.Plants index [tree] [result] after)
      (Exhausts wanted 65535) := by
  -- By induction on the tree: children are built, one after the other, before
  -- their parent is built over them.
  induction storable generalizing before with
  | node fits short shortParameters _ ih =>
      rw [Tree.extent, ← Extent.add_assoc] at room
      rw [plant]
      apply leads_bind (leads_plantAll
        (fun tree member before => ih tree member) wellFormed
        (Extent.le_of_add_le room))
      intro operands middle plants
      have count : operands.length = _ :=
        (List.length_map _).symm.trans (congrArg List.length plants.trees_eq)
      rw [← plants.extent_eq] at room
      rw [← count] at fits short room
      refine (leads_build plants.wellFormed plants.places fits ?_
        (Nat.le_refl _) short shortParameters).imp fun _ _ => plants.build
      rwa [buildExtent, importsExtent_own plants.own, Extent.zero_add]

end Edit

namespace Session

variable {session : Session}

/-- Building succeeds where the arena has room, and reading inverts it.  A node
that is built over held expressions, wherever they live and whatever they share,
is a root whose tree is the node over their trees.  A tree that is built
bottom-up reads back as itself and as nothing else; its positions, in post-order,
hold the next numbers of the arena, so in an arena without nodes these are 0, 1,
2 and so on. -/
theorem Reachable.build_then_read (reachable : session.Reachable)
    (index : Nat) :
    (∀ node : Node Expression,
      (∀ operand ∈ node.children, operand ∈ session.held) →
        (Operation.build index node).longest ≤ 65535 →
          ((session.forest.arena index).extent +
            (Operation.build index node).extent session.forest).Fits →
          ∃ result after,
            session.forest.build index node.shape node.children =
                .ok (result, after) ∧
              result = .atRoot index result.node ∧
              after.tree result =
                .node node.shape (node.children.map session.forest.tree)) ∧
    ∀ tree : Tree, tree.Storable →
      ((session.forest.arena index).extent + tree.extent).Fits →
      ∃ result after,
        (Edit.plant index tree).outcome session.forest = .ok (result, after) ∧
          result = .atRoot index result.node ∧
          (∀ shown, after.Reads result shown ↔ shown = tree) ∧
          (after.arena index).size =
            (session.forest.arena index).size + tree.positions.length ∧
          ((after.arena index).occurrences result.node).map NodeId.index =
            List.range' (session.forest.arena index).size
              tree.positions.length := by
  have valid := reachable.valid
  have wellFormed := valid.wellFormed
  refine ⟨fun node held short enough => ?_, fun tree storable enough => ?_⟩
  · have lists := Operation.lists_le (Nat.le_refl 65535) short
    obtain ⟨result, after, run, built⟩ := Forest.succeeds_of_fits
      (Edit.leads_build wellFormed
        (fun operand member => valid.places operand (held operand member))
        node.admits_children (Extent.le_refl _) (Nat.le_refl 65535) lists.1
        lists.2) enough
    refine ⟨result, after, ?_, built.atRoot, built.produces.tree_eq⟩
    simp only [Forest.build, Edit.outcome, run]
  · obtain ⟨result, after, run, plants⟩ := Forest.succeeds_of_fits
      (Edit.leads_plant storable wellFormed (Extent.le_refl _)) enough
    have tree_eq := List.singleton_inj.mp plants.trees_eq
    have size := plants.size_eq
    have occurrences := plants.occurrences_eq
    rw [List.flatMap_singleton] at occurrences
    rw [Tree.extents_singleton, tree.nodes_extent] at size occurrences
    refine ⟨result, after, ?_, plants.atRoot result (by simp), fun shown => ?_,
      size, ?_⟩
    · simp only [Edit.outcome, run]
    · rw [Forest.reads_iff plants.wellFormed, tree_eq]
      exact eq_comm
    · have room := (plants.wellFormed index).size_le
      rw [size] at room
      rw [occurrences, List.map_map]
      refine (List.map_congr_left fun number member => ?_).trans (List.map_id _)
      have inside := List.mem_range'_1.mp member
      exact NodeId.index_ofIndex (by omega)

theorem build_then_read_nestedCall :
    let call := (Expression.atRoot 0 ⟨2⟩).below 0 ⟨1⟩
    let sum : Node Expression := .binary .add call (.atRoot 1 ⟨0⟩)
    let twice : Tree :=
      .node (.lambda [⟨⟨"x"⟩, .number, .required, {}⟩])
        [.node (.call ⟨"f"⟩)
          [.node (.reference ⟨"x"⟩) [], .node (.reference ⟨"x"⟩) []]]
    (∀ operand ∈ sum.children, operand ∈ nestedCall.held) ∧
      (∃ result after,
        nestedCall.forest.build 1 sum.shape sum.children =
            .ok (result, after) ∧
          after.tree result =
            .node (.binary .add)
              [nestedCall.forest.tree call,
                nestedCall.forest.tree (.atRoot 1 ⟨0⟩)]) ∧
      ∃ result after,
        (Edit.plant 2 twice).outcome nestedCall.forest =
            .ok (result, after) ∧
          after.Reads result twice ∧
          ((after.arena 2).occurrences result.node).map NodeId.index =
            [0, 1, 2, 3] := by
  intro call sum twice
  have held : ∀ operand ∈ sum.children, operand ∈ nestedCall.held := by
    decide +kernel
  have builds := Reachable.build_then_read reachable_nestedCall
  obtain ⟨result, after, run, -, tree⟩ := (builds 1).1 sum held (by decide)
    (by unfold Extent.Fits; decide +kernel)
  refine ⟨held, ⟨result, after, run, tree⟩, ?_⟩
  have storable : twice.Storable := by
    simp [twice, Tree.storable_node, Shape.admits, Shape.arity]
  obtain ⟨result, after, run, -, reads, -, occurrences⟩ :=
    (builds 2).2 twice storable (by unfold Extent.Fits; decide +kernel)
  exact ⟨result, after, run, (reads _).mpr rfl,
    occurrences.trans (by decide +kernel)⟩

end Session

end FormulaEngine
