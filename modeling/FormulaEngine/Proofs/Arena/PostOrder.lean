import FormulaEngine.Proofs.Arena.Unfolding
import Mathlib.Data.Set.Card
import Mathlib.Logic.Relation

/-!
# The nodes below a node

Gathering below a node lists every node that is reachable from it once, children
before their parents.  The list is finite, so reachable nodes can be counted.
-/

namespace FormulaEngine

namespace Arena

/-- A node is reachable from another one along children. -/
def Reaches (arena : Arena) : NodeId → NodeId → Prop :=
  Relation.ReflTransGen fun parent child => child ∈ arena.children parent

/-- The number of distinct nodes that are reachable from a node. -/
noncomputable def reachableCount (arena : Arena) (root : NodeId) : Nat :=
  {id | arena.Reaches root id}.ncard

variable {arena : Arena}

theorem WellFormed.index_le_of_reaches (wellFormed : arena.WellFormed)
    {root id : NodeId} (reaches : arena.Reaches root id) :
    id.index ≤ root.index := by
  induction reaches with
  | refl => exact Nat.le_refl _
  | tail _ isChild ih =>
      exact Nat.le_trans (Nat.le_of_lt (wellFormed.older _ _ isChild)) ih

/-- In a list of nodes, latest first, no node occurs twice, and the children of
each have been listed before it. -/
def ChildrenFirst (arena : Arena) : List NodeId → Prop
  | [] => True
  | id :: earlier =>
      id ∉ earlier ∧ (∀ child ∈ arena.children id, child ∈ earlier) ∧
        arena.ChildrenFirst earlier

namespace ChildrenFirst

variable {nodes : List NodeId}

theorem nodup (ordered : arena.ChildrenFirst nodes) : nodes.Nodup := by
  induction nodes with
  | nil => exact List.nodup_nil
  | cons id earlier ih => exact List.nodup_cons.mpr ⟨ordered.1, ih ordered.2.2⟩

theorem of_append {later earlier : List NodeId}
    (ordered : arena.ChildrenFirst (later ++ earlier)) :
    arena.ChildrenFirst earlier := by
  induction later with
  | nil => exact ordered
  | cons id later ih => exact ih ordered.2.2

theorem mem_of_child (ordered : arena.ChildrenFirst nodes)
    {id child : NodeId} (member : id ∈ nodes)
    (isChild : child ∈ arena.children id) : child ∈ nodes := by
  induction nodes with
  | nil => simp at member
  | cons head earlier ih =>
      obtain ⟨_, children, earlierOrdered⟩ := ordered
      rcases List.mem_cons.mp member with rfl | member
      · exact List.mem_cons_of_mem _ (children child isChild)
      · exact List.mem_cons_of_mem _ (ih earlierOrdered member)

theorem mem_of_reaches (ordered : arena.ChildrenFirst nodes)
    {root id : NodeId} (member : root ∈ nodes)
    (reaches : arena.Reaches root id) : id ∈ nodes := by
  induction reaches with
  | refl => exact member
  | tail _ isChild ih => exact ordered.mem_of_child ih isChild

end ChildrenFirst

/-- What gathering below some nodes yields: the old list with reachable nodes in
front of it, all of them, in order. -/
structure Gathers (arena : Arena) (gathered roots result : List NodeId) :
    Prop where
  ordered : arena.ChildrenFirst result
  kept : gathered <:+ result
  roots_mem : ∀ root ∈ roots, root ∈ result
  reached : ∀ id ∈ result, id ∈ gathered ∨
    ∃ root ∈ roots, arena.Reaches root id

/-- Gathering below nodes one after the other gathers below all of them. -/
theorem gathers_foldl {gatherOne : List NodeId → NodeId → List NodeId}
    {roots : List NodeId}
    (one : ∀ root ∈ roots, ∀ gathered, arena.ChildrenFirst gathered →
      arena.Gathers gathered [root] (gatherOne gathered root))
    {gathered : List NodeId} (ordered : arena.ChildrenFirst gathered) :
    arena.Gathers gathered roots (roots.foldl gatherOne gathered) := by
  induction roots generalizing gathered with
  | nil => exact ⟨ordered, List.suffix_refl _, by simp, fun _ => Or.inl⟩
  | cons root roots ih =>
      have first := one root (by simp) gathered ordered
      have rest := ih (fun other member => one other (by simp [member]))
        first.ordered
      refine ⟨rest.ordered, first.kept.trans rest.kept, ?_, ?_⟩
      · intro other member
        rcases List.mem_cons.mp member with rfl | member
        · exact rest.kept.subset (first.roots_mem other (by simp))
        · exact rest.roots_mem other member
      · intro id member
        rcases rest.reached id member with early | ⟨other, member, reaches⟩
        · rcases first.reached id early with old | ⟨other, member, reaches⟩
          · exact Or.inl old
          · obtain rfl := List.mem_singleton.mp member
            exact Or.inr ⟨other, by simp, reaches⟩
        · exact Or.inr ⟨other, by simp [member], reaches⟩

/-- A node is reachable from none of its children, being younger, so gathering
below them does not list it. -/
theorem Gathers.notMem_parent {gathered result : List NodeId} {parent : NodeId}
    (below : arena.Gathers gathered (arena.children parent) result)
    (wellFormed : arena.WellFormed) (unknown : parent ∉ gathered) :
    parent ∉ result := by
  intro member
  rcases below.reached parent member with known | ⟨child, isChild, reaches⟩
  · exact unknown known
  · have older := wellFormed.older parent child isChild
    have younger := wellFormed.index_le_of_reaches reaches
    omega

theorem WellFormed.gathers (wellFormed : arena.WellFormed) (root : NodeId)
    (gathered : List NodeId) (ordered : arena.ChildrenFirst gathered) :
    arena.Gathers gathered [root] (arena.gatherAll gathered root) := by
  induction root using wellFormed.wellFounded_child.induction
    generalizing gathered with
  | _ root ih =>
      rw [wellFormed.gatherAll_eq]
      split
      next known =>
        exact ⟨ordered, List.suffix_refl _, by simpa using known,
          fun _ => Or.inl⟩
      next unknown =>
        have below := gathers_foldl ih ordered
        have fresh := below.notMem_parent wellFormed unknown
        refine ⟨⟨fresh, below.roots_mem, below.ordered⟩,
          below.kept.trans (List.suffix_cons _ _), by simp, ?_⟩
        intro id member
        rcases List.mem_cons.mp member with rfl | member
        · exact Or.inr ⟨id, by simp, .refl⟩
        · rcases below.reached id member with old | ⟨child, isChild, reaches⟩
          · exact Or.inl old
          · exact Or.inr ⟨root, by simp, .head isChild reaches⟩

section PostOrder

variable (wellFormed : arena.WellFormed) (root : NodeId)

include wellFormed

/-- The post-order of a node lists what is reachable from it. -/
theorem WellFormed.mem_postOrder {id : NodeId} :
    id ∈ arena.postOrder root ↔ arena.Reaches root id := by
  have gathers := wellFormed.gathers root [] trivial
  rw [postOrder, List.mem_reverse]
  constructor
  · intro member
    rcases gathers.reached id member with old | ⟨other, isRoot, reaches⟩
    · simp at old
    · rwa [List.mem_singleton.mp isRoot] at reaches
  · exact gathers.ordered.mem_of_reaches (gathers.roots_mem root (by simp))

theorem WellFormed.nodup_postOrder : (arena.postOrder root).Nodup :=
  List.nodup_reverse.mpr (wellFormed.gathers root [] trivial).ordered.nodup

/-- In a post-order children come before their parents. -/
theorem WellFormed.children_first {id : NodeId} {done rest : List NodeId}
    (split : arena.postOrder root = done ++ id :: rest) :
    ∀ child ∈ arena.children id, child ∈ done := by
  have ordered := (wellFormed.gathers root [] trivial).ordered
  have reversed : arena.gatherAll [] root = rest.reverse ++ id :: done.reverse := by
    have := congrArg List.reverse split
    simpa [postOrder, gatherAll] using this
  rw [reversed] at ordered
  intro child isChild
  simpa using ordered.of_append.2.1 child isChild

theorem WellFormed.idxOf_postOrder {id : NodeId} {done rest : List NodeId}
    (split : arena.postOrder root = done ++ id :: rest) :
    (arena.postOrder root).idxOf id = done.length := by
  have nodup := wellFormed.nodup_postOrder root
  rw [split] at nodup ⊢
  have fresh : id ∉ done := fun member =>
    List.disjoint_of_nodup_append nodup member (by simp)
  rw [List.idxOf_append_of_notMem fresh, List.idxOf_cons_self]
  rfl

/-- A node is the last one of its post-order. -/
theorem WellFormed.getLast?_postOrder :
    (arena.postOrder root).getLast? = some root := by
  rw [postOrder, List.getLast?_reverse, ← gatherAll, wellFormed.gatherAll_eq]
  simp

theorem WellFormed.length_postOrder :
    (arena.postOrder root).length = arena.reachableCount root := by
  have same : {id | arena.Reaches root id} =
      ((arena.postOrder root).toFinset : Set NodeId) := by
    ext id
    simp [wellFormed.mem_postOrder root]
  rw [reachableCount, same, Set.ncard_coe_finset,
    List.toFinset_card_of_nodup (wellFormed.nodup_postOrder root)]

end PostOrder

end Arena

end FormulaEngine
