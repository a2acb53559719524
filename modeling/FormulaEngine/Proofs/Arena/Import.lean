import FormulaEngine.Proofs.Arena.PostOrder

/-!
# Copies between arenas

Attaching a detached subtree allocates one node for every distinct node of the
subtree, in post-order.  Each of them has the shape of its source over the
images of its source's children, so the root of the copy has the tree of the
root of the source.
-/

namespace FormulaEngine

open Stateful

namespace Arena

/-- Where a node below `root` goes when the copy starts at an index. -/
def image (source : Arena) (base : Nat) (root id : NodeId) : NodeId :=
  NodeId.ofIndex (base + (source.postOrder root).idxOf id)

/-- The images of some nodes have the shapes of the nodes, over the images of
their children. -/
structure Copies (source : Arena) (image : NodeId → NodeId)
    (copied : NodeId → Prop) (target : Arena) : Prop where
  contains : ∀ id, copied id → target.Contains (image id)
  shape : ∀ id, copied id → target.shape (image id) = source.shape id
  children : ∀ id, copied id →
    target.children (image id) = (source.children id).map image

variable {source before current after : Arena} {root : NodeId} {base : Nat}

theorem mapM_entry {ids children : List NodeId} {slot : NodeId → Nat}
    {image : NodeId → NodeId}
    (found : ∀ child ∈ children, ids[slot child]? = some (image child))
    (arena : Arena) :
    (children.map slot).mapM (entry ids) arena =
      .ok (children.map image) arena := by
  induction children with
  | nil => rfl
  | cons child children ih =>
      have first : entry ids (slot child) arena = .ok (image child) arena :=
        entry_of_getElem? (found child (by simp)) arena
      have rest := ih fun other member => found other (by simp [member])
      rw [List.map_cons, List.mapM_cons, bind_of_ok first, bind_of_ok rest]
      rfl

/-- The slots of a node's children lead to their images. -/
theorem image_of_slot {done rest : List NodeId}
    (split : source.postOrder root = done ++ rest) (base : Nat)
    {child : NodeId} (member : child ∈ done) :
    (done.map (source.image base root))[(source.postOrder root).idxOf child]? =
      some (source.image base root child) := by
  have slot : (source.postOrder root).idxOf child = done.idxOf child := by
    rw [split, List.idxOf_append_of_mem member]
  rw [slot, List.getElem?_map, List.getElem?_idxOf member]
  rfl

/-- The next node of the order is allocated at its image. -/
theorem Adds.id_eq_image {shape : Shape} {children done rest : List NodeId}
    {id new : NodeId} (adds : current.Adds shape children new after)
    (sourceWellFormed : source.WellFormed)
    (split : source.postOrder root = done ++ id :: rest)
    (size : current.size = base + done.length) :
    new = source.image base root id := by
  have slot := sourceWellFormed.idxOf_postOrder root split
  have addressable := adds.wellFormed.size_le
  have grown := adds.size_eq
  apply NodeId.index_injective
  rw [adds.index_eq, image, slot, NodeId.index_ofIndex (by omega), size]

theorem Copies.extend {image : NodeId → NodeId} {copied : NodeId → Prop}
    (copies : source.Copies image copied before)
    (wellFormed : before.WellFormed) (grows : before.Extends after) :
    source.Copies image copied after where
  contains id member := grows.contains (copies.contains id member)
  shape id member :=
    (grows.shape wellFormed (copies.contains id member)).trans
      (copies.shape id member)
  children id member :=
    (grows.children wellFormed (copies.contains id member)).trans
      (copies.children id member)

theorem Copies.insert {image : NodeId → NodeId} {done : List NodeId}
    {id : NodeId} (copies : source.Copies image (· ∈ done) before)
    (wellFormed : before.WellFormed)
    (adds : before.Adds (source.shape id) ((source.children id).map image)
      (image id) after) :
    source.Copies image (· ∈ done ++ [id]) after := by
  have old := copies.extend wellFormed adds.grows
  constructor
  · intro other member
    rcases List.mem_append.mp member with member | new
    · exact old.contains other member
    · obtain rfl := List.mem_singleton.mp new
      exact adds.contains
  · intro other member
    rcases List.mem_append.mp member with member | new
    · exact old.shape other member
    · obtain rfl := List.mem_singleton.mp new
      exact adds.shape_eq
  · intro other member
    rcases List.mem_append.mp member with member | new
    · exact old.children other member
    · obtain rfl := List.mem_singleton.mp new
      exact adds.children_eq

/-- A node is copied without exceeding the length of a range. -/
theorem leads_allocate_copy {wanted : Extent} {longest : Nat} {id : NodeId}
    {children : List NodeId} (wellFormed : current.WellFormed)
    (sameLength : children.length = (source.children id).length)
    (older : ∀ child ∈ children, current.Contains child)
    (room : current.extent + source.nodeExtent id ≤ wanted)
    (long : 65535 ≤ longest) :
    Leads (allocate (source.shape id) children) current
      (fun new after =>
        current.Adds (source.shape id) children new after ∧
          after.extent = current.extent + source.nodeExtent id)
      (Exhausts wanted longest) := by
  rw [nodeExtent, ← sameLength] at room ⊢
  refine leads_allocate wellFormed ?_ older room ?_ ?_
  · rw [sameLength]
    exact admits_children source id
  · intro function _
    rw [sameLength]
    exact Nat.le_trans (source.length_children_le id) long
  · intro parameters isLambda
    exact Nat.le_trans (source.length_parameters_le isLambda) long

/-- What attaching the rest of a subtree leads to, once `done` is attached. -/
theorem leads_attachAll (sourceWellFormed : source.WellFormed)
    {wanted : Extent} {longest : Nat} {done rest : List NodeId}
    (split : source.postOrder root = done ++ rest)
    (wellFormed : current.WellFormed)
    (size : current.size = base + done.length)
    (copies : source.Copies (source.image base root) (· ∈ done) current)
    (room : current.extent + (rest.map source.nodeExtent).sum ≤ wanted)
    (long : 65535 ≤ longest) :
    Leads (attachAll (done.map (source.image base root))
      (rest.map fun id => ⟨source.shape id, (source.children id).map
        fun child => (source.postOrder root).idxOf child⟩)) current
      (fun result after =>
        result = (source.postOrder root).map (source.image base root) ∧
          after.WellFormed ∧
          after.extent =
            current.extent + (rest.map source.nodeExtent).sum ∧
          source.Copies (source.image base root)
            (· ∈ source.postOrder root) after)
      (Exhausts wanted longest) := by
  -- Along the order, `done` grows by the node that is allocated next; its
  -- children have their images among those of `done`.
  induction rest generalizing done current with
  | nil =>
      rw [List.append_nil] at split
      rw [split]
      exact leads_pure ⟨rfl, wellFormed, (Extent.add_zero _).symm, copies⟩
  | cons id rest ih =>
      have first := sourceWellFormed.children_first root split
      have entries := mapM_entry
        (fun child isChild => image_of_slot split base (first child isChild))
        current
      rw [List.map_cons, List.sum_cons, ← Extent.add_assoc] at room
      rw [List.map_cons, attachAll, List.map_cons, List.sum_cons]
      apply leads_bind_of_ok entries
      apply leads_bind (leads_allocate_copy wellFormed
        (List.length_map ..)
        (by
          intro child isImage
          obtain ⟨sourceChild, isChild, rfl⟩ := List.mem_map.mp isImage
          exact copies.contains sourceChild (first sourceChild isChild))
        (Extent.le_of_add_le room) long)
      rintro new next ⟨adds, extent⟩
      obtain rfl := adds.id_eq_image sourceWellFormed split size
      have split : source.postOrder root = (done ++ [id]) ++ rest := by
        rw [split, List.append_assoc]
        rfl
      have leads := ih split adds.wellFormed
        (by
          rw [adds.size_eq, size, List.length_append, List.length_singleton]
          omega)
        (copies.insert wellFormed adds) (by rwa [extent])
      rw [List.map_append, extent, Extent.add_assoc] at leads
      exact leads

/-- Attaching a detached subtree copies the nodes below its root. -/
theorem leads_attach_detach (sourceWellFormed : source.WellFormed)
    (wellFormed : before.WellFormed) {wanted : Extent} {longest : Nat}
    (room : before.extent + source.copyExtent root ≤ wanted)
    (long : 65535 ≤ longest) :
    Leads (attach (source.detach root)) before
      (fun id after =>
        after.WellFormed ∧
          after.extent = before.extent + source.copyExtent root ∧
          id = source.image before.size root root ∧
          source.Copies (source.image before.size root) (source.Reaches root)
            after)
      (Exhausts wanted longest) := by
  have nothing : source.Copies (source.image before.size root) (· ∈ [])
      before :=
    ⟨by simp, by simp, by simp⟩
  apply leads_bind (leads_attachAll sourceWellFormed (List.nil_append _).symm
    wellFormed (Nat.add_zero before.size).symm nothing room long)
  rintro ids after ⟨rfl, afterWellFormed, extent, copies⟩
  refine leads_pure ⟨afterWellFormed, extent, ?_, ?_⟩
  · rw [List.getLast?_map, sourceWellFormed.getLast?_postOrder]
    rfl
  · simpa only [sourceWellFormed.mem_postOrder root] using copies

/-- A copy has one node for each distinct node of its source. -/
theorem WellFormed.nodes_copyExtent (sourceWellFormed : source.WellFormed) :
    (source.copyExtent root).nodes = source.reachableCount root := by
  rw [copyExtent, Extent.nodes_sum, ← sourceWellFormed.length_postOrder]
  simp [nodeExtent]

/-- The copy of a subtree has the tree of its source. -/
theorem Copies.tree {image : NodeId → NodeId}
    (copies : source.Copies image (source.Reaches root) after)
    (sourceWellFormed : source.WellFormed) (wellFormed : after.WellFormed) :
    after.tree (image root) = source.tree root :=
  sourceWellFormed.tree_image wellFormed image
    (fun _ reaches _ isChild => reaches.tail isChild)
    copies.shape copies.children .refl

end Arena

end FormulaEngine
