import FormulaEngine.Proofs.Arena.Import
import FormulaEngine.Proofs.Formula.Position

/-!
# Occurrences of nodes

A node that is shared occurs at several positions of a tree.  The occurrences
below a node list the nodes at all positions, in post-order, shared ones once for
each of their positions; a detached subtree lists the same nodes, each where it
occurs first.  In a copy every position holds the image of the node that the
source has there, so a copy shares just what its source shares.
-/

namespace FormulaEngine

namespace Arena

/-- The node at a position of the tree of a node, if there is one. -/
def nodeAt? (arena : Arena) : NodeId → (position : List Nat) → Option NodeId
  | id, [] => some id
  | id, index :: position =>
      (arena.children id)[index]?.bind fun child =>
        arena.nodeAt? child position

/-- The nodes at the positions of the tree of a node, in post-order. -/
def occurrences (arena : Arena) (id : NodeId) : List NodeId :=
  (arena.tree id).positions.filterMap (arena.nodeAt? id)

variable {arena before after source : Arena}

theorem reaches_of_nodeAt? {id node : NodeId} {position : List Nat}
    (found : arena.nodeAt? id position = some node) : arena.Reaches id node := by
  induction position generalizing id with
  | nil =>
      obtain rfl := Option.some.inj found
      exact .refl
  | cons index position ih =>
      obtain ⟨child, isChild, below⟩ := Option.bind_eq_some_iff.mp found
      exact .head (List.mem_of_getElem? isChild) (ih below)

theorem reaches_of_mem_occurrences {id node : NodeId}
    (member : node ∈ arena.occurrences id) : arena.Reaches id node := by
  obtain ⟨position, -, found⟩ := List.mem_filterMap.mp member
  exact reaches_of_nodeAt? found

theorem filterMap_positionsFrom {id : NodeId} {index : Nat}
    {nodes : List NodeId} (rest : (arena.children id).drop index = nodes) :
    (Tree.positionsFrom index (nodes.map arena.tree)).filterMap
        (arena.nodeAt? id) =
      nodes.flatMap arena.occurrences := by
  induction nodes generalizing index with
  | nil => rfl
  | cons node nodes ih =>
      have isChild : (arena.children id)[index]? = some node := by
        rw [← List.head?_drop, rest]
        rfl
      have later : (arena.children id).drop (index + 1) = nodes := by
        rw [← List.tail_drop, rest]
        rfl
      have below : arena.nodeAt? id ∘ (index :: ·) = arena.nodeAt? node := by
        funext position
        simp only [Function.comp_apply, nodeAt?, isChild, Option.bind_some]
      rw [List.map_cons, Tree.positionsFrom, List.filterMap_append,
        List.filterMap_map, below, ih later, List.flatMap_cons]
      rfl

/-- A node occurs after all that occurs below its children. -/
theorem WellFormed.occurrences_eq (wellFormed : arena.WellFormed)
    (id : NodeId) :
    arena.occurrences id =
      (arena.children id).flatMap arena.occurrences ++ [id] := by
  rw [occurrences, wellFormed.tree_eq, Tree.positions, List.filterMap_append,
    filterMap_positionsFrom (List.drop_zero ..)]
  rfl

theorem Extends.nodeAt? (grows : before.Extends after)
    (wellFormed : before.WellFormed) {id : NodeId} (inside : before.Contains id)
    (position : List Nat) :
    after.nodeAt? id position = before.nodeAt? id position := by
  induction position generalizing id with
  | nil => rfl
  | cons index position ih =>
      rw [Arena.nodeAt?, Arena.nodeAt?, grows.children wellFormed inside]
      cases isChild : (before.children id)[index]? with
      | none => rfl
      | some child =>
          exact ih (wellFormed.contains_child (List.mem_of_getElem? isChild))

theorem Extends.occurrences (grows : before.Extends after)
    (wellFormed : before.WellFormed) (afterWellFormed : after.WellFormed)
    {id : NodeId} (inside : before.Contains id) :
    after.occurrences id = before.occurrences id := by
  rw [Arena.occurrences, grows.tree wellFormed afterWellFormed inside]
  congr 1
  funext position
  exact grows.nodeAt? wellFormed inside position

/-! ### First occurrences -/

theorem foldl_insert_of_subset {gathered nodes : List NodeId}
    (known : ∀ node ∈ nodes, node ∈ gathered) :
    nodes.foldl (fun gathered node => gathered.insert node) gathered =
      gathered := by
  induction nodes with
  | nil => rfl
  | cons node nodes ih =>
      rw [List.foldl_cons, List.insert_of_mem (known node (by simp))]
      exact ih fun other member => known other (by simp [member])

/-- Gathering below a node puts its occurrences, one after the other, in front of
the list, unless they are in it already. -/
theorem WellFormed.gatherAll_eq_foldl (wellFormed : arena.WellFormed)
    {gathered : List NodeId} (ordered : arena.ChildrenFirst gathered)
    (id : NodeId) :
    arena.gatherAll gathered id =
      (arena.occurrences id).foldl
        (fun gathered node => gathered.insert node) gathered := by
  induction id using wellFormed.wellFounded_child.induction
    generalizing gathered with
  | _ id ih =>
      have children {nodes : List NodeId}
          (areChildren : nodes ⊆ arena.children id) {gathered : List NodeId}
          (ordered : arena.ChildrenFirst gathered) :
          nodes.foldl arena.gatherAll gathered =
            (nodes.flatMap arena.occurrences).foldl
              (fun gathered node => gathered.insert node) gathered := by
        induction nodes generalizing gathered with
        | nil => rfl
        | cons node nodes below =>
            rw [List.foldl_cons, List.flatMap_cons, List.foldl_append,
              ← ih node (areChildren (by simp)) ordered]
            exact below (fun other member => areChildren (by simp [member]))
              (wellFormed.gathers node gathered ordered).ordered
      rw [wellFormed.gatherAll_eq, wellFormed.occurrences_eq, List.foldl_append]
      split
      next known =>
        have stays : ((arena.children id).flatMap arena.occurrences).foldl
            (fun gathered node => gathered.insert node) gathered = gathered := by
          apply foldl_insert_of_subset
          intro node member
          obtain ⟨child, isChild, occurs⟩ := List.mem_flatMap.mp member
          exact ordered.mem_of_reaches known
            (.head isChild (reaches_of_mem_occurrences occurs))
        rw [stays]
        exact (List.insert_of_mem known).symm
      next unknown =>
        have below : arena.Gathers gathered (arena.children id)
            ((arena.children id).foldl arena.gatherAll gathered) :=
          gathers_foldl (fun child _ gathered => wellFormed.gathers child gathered)
            ordered
        have fresh := below.notMem_parent wellFormed unknown
        rw [children (List.Subset.refl _) ordered] at fresh ⊢
        exact (List.insert_of_not_mem fresh).symm

theorem eraseDupsBy_loop_eq (nodes gathered : List NodeId) :
    List.eraseDupsBy.loop (· == ·) nodes gathered =
      (nodes.foldl (fun gathered node => gathered.insert node)
        gathered).reverse := by
  induction nodes generalizing gathered with
  | nil => rfl
  | cons node nodes ih =>
      rw [List.eraseDupsBy.loop, List.foldl_cons]
      rw [List.any_beq, List.contains_eq_mem]
      by_cases known : node ∈ gathered
      · rw [decide_eq_true known, List.insert_of_mem known, ← ih]
      · rw [decide_eq_false known, List.insert_of_not_mem known, ← ih]

/-- The post-order of a node lists each of its occurrences where it comes
first. -/
theorem WellFormed.postOrder_eq_eraseDups (wellFormed : arena.WellFormed)
    (root : NodeId) :
    arena.postOrder root = (arena.occurrences root).eraseDups := by
  have nothing : arena.ChildrenFirst [] := trivial
  rw [postOrder, ← gatherAll, wellFormed.gatherAll_eq_foldl nothing]
  exact (eraseDupsBy_loop_eq _ []).symm

/-! ### Copies -/

variable {root : NodeId} {base : Nat}

theorem Copies.nodeAt? {image : NodeId → NodeId}
    (copies : source.Copies image (source.Reaches root) after) {id : NodeId}
    (reaches : source.Reaches root id) (position : List Nat) :
    after.nodeAt? (image id) position =
      (source.nodeAt? id position).map image := by
  induction position generalizing id with
  | nil => rfl
  | cons index position ih =>
      rw [Arena.nodeAt?, Arena.nodeAt?, copies.children id reaches,
        List.getElem?_map]
      cases isChild : (source.children id)[index]? with
      | none => rfl
      | some child => exact ih (reaches.tail (List.mem_of_getElem? isChild))

theorem WellFormed.image_injOn (wellFormed : source.WellFormed)
    (room : base + (source.postOrder root).length ≤ UInt32.size) :
    Set.InjOn (source.image base root) {id | source.Reaches root id} := by
  intro first firstReached second secondReached same
  have firstMember := (wellFormed.mem_postOrder root).mpr firstReached
  have secondMember := (wellFormed.mem_postOrder root).mpr secondReached
  have firstSlot := List.idxOf_lt_length_of_mem firstMember
  have secondSlot := List.idxOf_lt_length_of_mem secondMember
  have indexes := congrArg NodeId.index same
  rw [image, image, NodeId.index_ofIndex (by omega),
    NodeId.index_ofIndex (by omega)] at indexes
  exact (List.idxOf_inj firstMember).mp (by omega)

/-- Two positions of a copy hold one node just when they do so in the source. -/
theorem Copies.nodeAt?_eq_iff {image : NodeId → NodeId}
    (copies : source.Copies image (source.Reaches root) after)
    (injective : Set.InjOn image {id | source.Reaches root id})
    (first second : List Nat) :
    after.nodeAt? (image root) first = after.nodeAt? (image root) second ↔
      source.nodeAt? root first = source.nodeAt? root second := by
  rw [copies.nodeAt? .refl, copies.nodeAt? .refl]
  refine ⟨fun same => ?_, congrArg _⟩
  cases atFirst : source.nodeAt? root first with
  | none =>
      rw [atFirst, Option.map_none] at same
      exact (Option.map_eq_none_iff.mp same.symm).symm
  | some node =>
      rw [atFirst, Option.map_some] at same
      obtain ⟨other, atSecond, image⟩ := Option.map_eq_some_iff.mp same.symm
      rw [atSecond, injective (reaches_of_nodeAt? atSecond)
        (reaches_of_nodeAt? atFirst) image]

end Arena

end FormulaEngine
