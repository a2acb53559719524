import FormulaEngine.Arena.Copy
import FormulaEngine.Proofs.Stateful

/-!
# Growth of arenas

An arena extends another one when each of its storages starts with the storage
of the other.  Whatever an allocation does, and even where it fails, the arena
after it extends the arena before it.  What was stored reads the same in every
extension: nodes, and the entries of ranges that lay within their storage.
-/

namespace FormulaEngine

open Stateful

namespace NodeId

theorem index_ofIndex {index : Nat} (addressable : index < UInt32.size) :
    (ofIndex index).index = index :=
  Nat.mod_eq_of_lt addressable

theorem ofIndex_index (id : NodeId) : ofIndex id.index = id :=
  congrArg NodeId.mk UInt32.ofNat_toNat

theorem index_injective {left right : NodeId}
    (same : left.index = right.index) : left = right := by
  cases left
  cases right
  congr 1
  exact UInt32.toNat_inj.mp same

end NodeId

namespace StorageRange

variable {Entry : Type}

theorem slice_eq (range : StorageRange) (storage : Array Entry) :
    range.slice storage =
      (storage.toList.drop range.first).take range.size := by
  simp [slice, List.extract_eq_take_drop, next]

theorem length_slice_le (range : StorageRange) (storage : Array Entry) :
    (range.slice storage).length ≤ 65535 := by
  have bounded := range.length.toNat_lt
  rw [slice_eq, List.length_take]
  simp only [size]
  omega

/-- The entries of a range within a storage survive when the storage grows. -/
theorem slice_of_prefix {range : StorageRange} {before after : Array Entry}
    (grows : before.toList <+: after.toList)
    (inside : range.next ≤ before.size) :
    range.slice after = range.slice before := by
  obtain ⟨added, grown⟩ := grows
  have long : range.first + range.size ≤ before.toList.length := by
    simpa [next] using inside
  rw [slice_eq, slice_eq, ← grown,
    List.drop_append_of_le_length (by omega),
    List.take_append_of_le_length (by rw [List.length_drop]; omega)]

/-- A range made for appended entries holds just these. -/
theorem slice_appended {before : Array Entry} {entries : List Entry}
    (addressable : before.size < UInt32.size)
    (short : entries.length ≤ 65535) :
    (StorageRange.mk (UInt32.ofNat before.size)
      (UInt16.ofNat entries.length)).slice (before ++ entries) =
        entries := by
  have start : (UInt32.ofNat before.size).toNat = before.size :=
    Nat.mod_eq_of_lt addressable
  have length : (UInt16.ofNat entries.length).toNat = entries.length :=
    Nat.mod_eq_of_lt (by omega)
  simp [slice_eq, first, size, start, length]

theorem next_appended {before : Array Entry} {entries : List Entry}
    (addressable : before.size < UInt32.size)
    (short : entries.length ≤ 65535) :
    (StorageRange.mk (UInt32.ofNat before.size)
      (UInt16.ofNat entries.length)).next = before.size + entries.length := by
  have start : (UInt32.ofNat before.size).toNat = before.size :=
    Nat.mod_eq_of_lt addressable
  have length : (UInt16.ofNat entries.length).toNat = entries.length :=
    Nat.mod_eq_of_lt (by omega)
  simp [next, first, size, start, length]

end StorageRange

namespace Arena

/-- Every storage of `after` starts with that of `before`. -/
structure Extends (before after : Arena) : Prop where
  nodes : before.nodes.toList <+: after.nodes.toList
  childLists : before.childLists.toList <+: after.childLists.toList
  parameters : before.parameters.toList <+: after.parameters.toList

instance : IsPreorder Arena Extends where
  refl _ :=
    ⟨List.prefix_refl _, List.prefix_refl _, List.prefix_refl _⟩
  trans _ _ _ first second :=
    ⟨first.nodes.trans second.nodes,
      first.childLists.trans second.childLists,
      first.parameters.trans second.parameters⟩

theorem Extends.refl (arena : Arena) : arena.Extends arena :=
  refl_of Extends arena

theorem Extends.trans {first second third : Arena}
    (early : first.Extends second) (late : second.Extends third) :
    first.Extends third :=
  trans_of Extends early late

/-- An arena contains the numbers of its nodes. -/
def Contains (arena : Arena) (id : NodeId) : Prop :=
  id.index < arena.size

/-- The ranges of a stored node lie within the storages of an arena. -/
def Covers (arena : Arena) : StoredNode → Prop
  | .call _ arguments => arguments.next ≤ arena.childLists.size
  | .lambda parameters _ => parameters.next ≤ arena.parameters.size
  | _ => True

section Extension

variable {before after : Arena}

theorem Extends.size_le (grows : before.Extends after) :
    before.size ≤ after.size := by
  simpa [size] using grows.nodes.length_le

theorem Extends.contains (grows : before.Extends after) {id : NodeId}
    (inside : before.Contains id) : after.Contains id :=
  Nat.lt_of_lt_of_le inside grows.size_le

theorem Extends.covers (grows : before.Extends after) {node : StoredNode}
    (covered : before.Covers node) : after.Covers node := by
  have lists := grows.childLists.length_le
  have parameters := grows.parameters.length_le
  simp only [Array.length_toList] at lists parameters
  cases node with
  | call function arguments => exact Nat.le_trans covered lists
  | lambda range body => exact Nat.le_trans covered parameters
  | _ => trivial

/-- A stored node reads the same in an extension. -/
theorem Extends.stored (grows : before.Extends after) {id : NodeId}
    (inside : before.Contains id) : after.stored id = before.stored id := by
  have old : id.index < before.nodes.toList.length := by
    simpa [Contains, size] using inside
  have same := grows.nodes.getElem old
  have bound : id.index < after.nodes.size :=
    grows.contains inside
  simp only [Array.getElem_toList] at same
  simp [Arena.stored, Array.getElem?_eq_getElem bound,
    Array.getElem?_eq_getElem (show id.index < before.nodes.size from inside),
    same]

theorem Extends.shapeOf (grows : before.Extends after) {node : StoredNode}
    (covered : before.Covers node) :
    after.shapeOf node = before.shapeOf node := by
  cases node with
  | lambda range body =>
      simp only [Arena.shapeOf]
      rw [StorageRange.slice_of_prefix grows.parameters covered]
  | _ => rfl

theorem Extends.childrenOf (grows : before.Extends after) {node : StoredNode}
    (covered : before.Covers node) :
    after.childrenOf node = before.childrenOf node := by
  cases node with
  | call function arguments =>
      exact StorageRange.slice_of_prefix grows.childLists covered
  | _ => rfl

end Extension

section Allocation

theorem appends_push (node : StoredNode) : Along Extends (push node) := by
  intro arena
  unfold push
  split
  · exact ⟨by simp [finalState], List.prefix_refl _, List.prefix_refl _⟩
  · exact Extends.refl arena

theorem appends_pushEntries {Entry : Type} {storage : Arena → Array Entry}
    {append : Arena → Arena} (full tooMany : AllocationError)
    (entries : List Entry) (grows : ∀ arena, Extends arena (append arena)) :
    Along Extends (pushEntries storage append full tooMany entries) := by
  intro arena
  simp only [pushEntries]
  split
  · split
    · exact grows arena
    · exact grows arena
  · exact Extends.refl arena

theorem extends_arguments (arena : Arena) (arguments : List NodeId) :
    arena.Extends
      { arena with childLists := arena.childLists ++ arguments } :=
  ⟨List.prefix_refl _, by simp, List.prefix_refl _⟩

theorem extends_parameters (arena : Arena) (parameters : List Parameter) :
    arena.Extends
      { arena with parameters := arena.parameters ++ parameters } :=
  ⟨List.prefix_refl _, List.prefix_refl _, by simp⟩

theorem appends_pushArguments (arguments : List NodeId) :
    Along Extends (pushArguments arguments) :=
  appends_pushEntries _ _ _ fun arena => arena.extends_arguments arguments

theorem appends_pushParameters (parameters : List Parameter) :
    Along Extends (pushParameters parameters) :=
  appends_pushEntries _ _ _ fun arena => arena.extends_parameters parameters

theorem appends_pushCall (function : FunctionName) (arguments : List NodeId) :
    Along Extends (pushCall function arguments) :=
  along_bind (appends_pushArguments arguments) fun _ => appends_push _

theorem appends_entry (nodes : List NodeId) (index : Nat) :
    Along Extends (entry nodes index) := by
  unfold entry
  split
  · exact along_pure _
  · exact along_throw _

theorem appends_allocate (shape : Shape) (children : List NodeId) :
    Along Extends (allocate shape children) := by
  cases shape with
  | value literal => exact appends_push _
  | reference name => exact appends_push _
  | unary op => exact along_bind (appends_entry _ _) fun _ => appends_push _
  | binary op =>
      exact along_bind (appends_entry _ _) fun _ =>
        along_bind (appends_entry _ _) fun _ => appends_push _
  | call function => exact appends_pushCall function children
  | lambda parameters =>
      exact along_bind (appends_pushParameters parameters) fun _ =>
        along_bind (appends_entry _ _) fun _ => appends_push _

theorem appends_rebuild (id : NodeId) (children : List NodeId) :
    Along Extends (rebuild id children) := by
  apply along_get_bind
  intro arena
  cases arena.stored id with
  | value literal => exact appends_push _
  | reference name => exact appends_push _
  | unary op operand =>
      exact along_bind (appends_entry _ _) fun _ => appends_push _
  | binary op left right =>
      exact along_bind (appends_entry _ _) fun _ =>
        along_bind (appends_entry _ _) fun _ => appends_push _
  | call function arguments => exact appends_pushCall function children
  | lambda parameters body =>
      exact along_bind (appends_entry _ _) fun _ => appends_push _

theorem appends_mapM_entry (nodes : List NodeId) (slots : List Nat) :
    Along Extends (slots.mapM (entry nodes)) := by
  induction slots with
  | nil => exact along_pure _
  | cons slot slots ih =>
      rw [List.mapM_cons]
      exact along_bind (appends_entry nodes slot) fun _ =>
        along_bind ih fun _ => along_pure _

theorem appends_attachAll (ids : List NodeId) (detached : List DetachedNode) :
    Along Extends (attachAll ids detached) := by
  induction detached generalizing ids with
  | nil => exact along_pure _
  | cons node rest ih =>
      exact along_bind (appends_mapM_entry ids node.slots) fun children =>
        along_bind (appends_allocate node.shape children) fun id =>
          ih (ids ++ [id])

/-- Attaching a detached subtree only appends. -/
theorem appends_attach (detached : List DetachedNode) :
    Along Extends (attach detached) :=
  along_bind (appends_attachAll [] detached) fun _ => along_pure _

end Allocation

end Arena

end FormulaEngine
