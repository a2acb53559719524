import FormulaEngine.Proofs.Expression.Session

/-!
# Recursion in reachable sessions

Every arena that a caller can bring about is sound: children are older than
their parents, ranges lie within their storages, and the numbers of children fit
the shapes.  So every descent ends, the recursions along children need no bound,
and no index that an operation computes lies outside its list.
-/

namespace FormulaEngine

open Stateful

/-- A child is older than its parent. -/
theorem Forest.WellFormed.older_child {forest : Forest}
    (wellFormed : forest.WellFormed) {expression child : Expression}
    (isChild : child ∈ forest.children expression) :
    child.node.index < expression.node.index := by
  obtain ⟨index, found⟩ := List.mem_iff_getElem?.mp isChild
  rw [Forest.getElem?_children] at found
  obtain ⟨node, isNode, rfl⟩ := Option.map_eq_some_iff.mp found
  exact (wellFormed expression.arena).older expression.node node
    (List.mem_of_getElem? isNode)

namespace Visitor

variable {State : Type} {forest : Forest}

theorem walkAll_congr {children : List Expression}
    {first second : Expression → State → State}
    (same : ∀ child ∈ children, ∀ state,
      first child state = second child state) :
    (fun state => children.foldl (fun state child => first child state) state) =
      fun state =>
        children.foldl (fun state child => second child state) state := by
  funext state
  exact List.foldl_ext _ _ state fun state child isChild =>
    same child isChild state

/-- Walking a node takes the walk of its children only. -/
theorem walkNode_congr (visitor : Visitor State) {expression : Expression}
    {first second : Expression → State → State}
    (same : ∀ child ∈ forest.children expression, ∀ state,
      first child state = second child state) (state : State) :
    visitor.walkNode forest first expression state =
      visitor.walkNode forest second expression state := by
  rw [← forest.children_node expression] at same
  unfold walkNode
  split
  · rfl
  · cases node : forest.node expression with
    | value literal => rfl
    | reference name => rfl
    | _ =>
        simp only [node, Node.children] at same
        simp only [walkAll_congr same]

/-- All depths beyond the index of its node walk an expression alike. -/
theorem walkTo_congr (visitor : Visitor State) (wellFormed : forest.WellFormed)
    {first second : Nat} {expression : Expression}
    (firstEnough : expression.node.index < first)
    (secondEnough : expression.node.index < second) (state : State) :
    visitor.walkTo forest first expression state =
      visitor.walkTo forest second expression state := by
  induction first generalizing second expression state with
  | zero => omega
  | succ first ih =>
      cases second with
      | zero => omega
      | succ second =>
          apply visitor.walkNode_congr
          intro child isChild state
          have older := wellFormed.older_child isChild
          exact ih (by omega) (by omega) state

/-- Walking an expression is walking its node, with the walk of its children. -/
theorem walk_eq (visitor : Visitor State) (wellFormed : forest.WellFormed)
    (expression : Expression) (state : State) :
    visitor.walk forest expression state =
      visitor.walkNode forest (visitor.walk forest) expression state := by
  apply visitor.walkNode_congr
  intro child isChild state
  exact visitor.walkTo_congr wellFormed (wellFormed.older_child isChild)
    (Nat.lt_succ_self _) state

end Visitor

namespace Arena

/-- Children are older than their parents and inside the arena, ranges lie
within their storages, and the numbers of children fit the shapes. -/
structure Sound (arena : Arena) : Prop where
  older : ∀ id, ∀ child ∈ arena.children id, child.index < id.index
  inside : ∀ id, ∀ child ∈ arena.children id, arena.Contains child
  covers : ∀ id, arena.Covers (arena.stored id)
  arity : ∀ id expected, (arena.shape id).arity = some expected →
    (arena.children id).length = expected

/-- Descents along children end, and unfolding, gathering and comparing satisfy
their equations without a bound. -/
structure Grounded (arena : Arena) : Prop where
  wellFounded : WellFounded fun child parent => child ∈ arena.children parent
  tree_eq : ∀ id, arena.tree id =
    .node (arena.shape id) ((arena.children id).map arena.tree)
  gatherAll_eq : ∀ gathered id, arena.gatherAll gathered id =
    if id ∈ gathered then gathered
    else id :: (arena.children id).foldl arena.gatherAll gathered
  treesAlike_eq : ∀ (other : Arena) (id otherId : NodeId),
    arena.treesAlike other id otherId =
      ((arena.shape id).agrees (other.shape otherId) &&
        ((arena.children id).length == (other.children otherId).length &&
          ((arena.children id).zip (other.children otherId)).all
            fun pair => arena.treesAlike other pair.1 pair.2))

theorem WellFormed.sound {arena : Arena} (wellFormed : arena.WellFormed) :
    arena.Sound where
  older := wellFormed.older
  inside _ _ := wellFormed.contains_child
  covers := wellFormed.covers
  arity id _ := Shape.count_of_admits (admits_children arena id)

theorem WellFormed.grounded {arena : Arena} (wellFormed : arena.WellFormed) :
    arena.Grounded where
  wellFounded := wellFormed.wellFounded_child
  tree_eq := wellFormed.tree_eq
  gatherAll_eq := wellFormed.gatherAll_eq
  treesAlike_eq _ := wellFormed.treesAlike_eq

section Indexes

variable {arena source : Arena} {index count : Nat}

/-- Copying a node over children that fit its shape misses none of them. -/
theorem WellFormed.rebuild_not_missing (wellFormed : arena.WellFormed)
    {id : NodeId} {children : List NodeId} {after : Arena}
    (fits : (arena.shape id).admits children.length)
    (inside : ∀ child ∈ children, arena.Contains child) :
    rebuild id children arena ≠ .error (.missing index count) after :=
  fun run => (leads_rebuild wellFormed fits inside (Extent.le_refl _)
    fun _ _ => Nat.le_refl _).of_error run |>.exceeds

/-- Attaching what was detached misses no slot. -/
theorem WellFormed.attach_not_missing (wellFormed : arena.WellFormed)
    (sourceWellFormed : source.WellFormed) {root : NodeId} {after : Arena} :
    attach (source.detach root) arena ≠ .error (.missing index count) after :=
  fun run => (leads_attach_detach sourceWellFormed wellFormed
    (Extent.le_refl _) (Nat.le_refl _)).of_error run |>.exceeds

end Indexes

end Arena

namespace Session

/-- Every arena of a reachable session is sound, so recursion along children
ends.  Held expressions and their ancestors are in their arenas; and neither
copying a node, nor attaching a detached subtree, nor any operation on held
expressions asks for a child or a slot that is not there. -/
theorem Reachable.arenas_sound {session : Session}
    (reachable : session.Reachable) :
    (∀ index, (session.forest.arena index).Sound ∧
      (session.forest.arena index).Grounded) ∧
    (∀ expression ∈ session.held,
      (session.forest.arena expression.arena).Contains expression.node ∧
      ∀ step ∈ expression.path,
        (session.forest.arena expression.arena).Contains step.node) ∧
    (∀ (State : Type) (visitor : Visitor State) (expression : Expression)
      (state : State),
      visitor.walk session.forest expression state =
        visitor.walkNode session.forest (visitor.walk session.forest)
          expression state) ∧
    (∀ (arenaIndex index count : Nat) (id : NodeId) (children : List NodeId)
      (after : Arena),
      ((session.forest.arena arenaIndex).shape id).admits children.length →
      (∀ child ∈ children, (session.forest.arena arenaIndex).Contains child) →
      Arena.rebuild id children (session.forest.arena arenaIndex) ≠
        .error (.missing index count) after) ∧
    (∀ (sourceIndex targetIndex index count : Nat) (root : NodeId)
      (after : Arena),
      Arena.attach ((session.forest.arena sourceIndex).detach root)
        (session.forest.arena targetIndex) ≠
          .error (.missing index count) after) ∧
    (∀ (operation : Operation) (index count : Nat) (after : Forest),
      (∀ operand ∈ operation.operands, operand ∈ session.held) →
      operation.perform session.forest ≠
        .error (.capacity (.missing index count)) after) := by
  have valid := reachable.valid
  have wellFormed := valid.wellFormed
  refine ⟨fun index => ⟨(wellFormed index).sound, (wellFormed index).grounded⟩,
    fun expression held => ⟨(valid.places expression held).contains wellFormed,
      fun step member => Arena.Chain.contains_step
        (wellFormed expression.arena) (valid.places expression held) member⟩,
    fun _ visitor => visitor.walk_eq wellFormed,
    fun arenaIndex _ _ _ _ _ fits inside =>
      (wellFormed arenaIndex).rebuild_not_missing fits inside,
    fun sourceIndex targetIndex _ _ _ _ =>
      (wellFormed targetIndex).attach_not_missing (wellFormed sourceIndex), ?_⟩
  intro operation index count after held run
  obtain ⟨wanted, longest, leads⟩ := valid.leads_perform held
  exact (leads.of_error run).not_missing index count rfl

theorem arenas_sound_nestedCall :
    nestedCall.Reachable ∧ (nestedCall.forest.arena 0).Sound ∧
      (nestedCall.forest.arena 0).Grounded :=
  ⟨reachable_nestedCall, (Reachable.arenas_sound reachable_nestedCall).1 0⟩

end Session

end FormulaEngine
