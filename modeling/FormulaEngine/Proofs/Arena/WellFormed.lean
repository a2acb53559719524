import FormulaEngine.Proofs.Arena.Capacity
import FormulaEngine.Proofs.Arena.Growth
import Mathlib.Data.List.Basic
import Mathlib.Tactic.ByContra

/-!
# Well-formed arenas

In a well-formed arena children are older than their parents and every range
lies within its storage.  Allocating a node over children that are there, in a
number that fits its shape, fails only for want of capacity and keeps an arena
well-formed; the new node has the shape and the children asked for.  The two
ways to allocate, for a shape and as a copy of a node, share one description of
their effect.
-/

namespace FormulaEngine

open Stateful

/-- A number that fits a shape is the one that the shape fixes. -/
theorem Shape.count_of_admits {shape : Shape} {count expected : Nat}
    (fits : shape.admits count) (fixed : shape.arity = some expected) :
    count = expected := by
  simp only [admits, fixed, beq_iff_eq] at fits
  exact fits.symm

namespace Arena

/-- Children are older than their parents, ranges lie within their storages, and
every node has a number of its own. -/
structure WellFormed (arena : Arena) : Prop where
  size_le : arena.size ≤ UInt32.size
  older : ∀ id, ∀ child ∈ arena.children id, child.index < id.index
  covers : ∀ id, arena.Covers (arena.stored id)

theorem stored_of_not_contains {arena : Arena} {id : NodeId}
    (outside : ¬ arena.Contains id) :
    arena.stored id = .value (.bool false) := by
  simp only [Contains, size] at outside
  simp [stored, Array.getElem?_eq_none (Nat.le_of_not_lt outside)]

/-- Only nodes of an arena have children. -/
theorem contains_of_child {arena : Arena} {id child : NodeId}
    (isChild : child ∈ arena.children id) : arena.Contains id := by
  by_contra outside
  simp [children, stored_of_not_contains outside, childrenOf] at isChild

theorem wellFormed_empty : empty.WellFormed := by
  have stored (id : NodeId) : empty.stored id = .value (.bool false) :=
    stored_of_not_contains (by simp [Contains, size, empty])
  constructor
  · simp [size, empty]
  · intro id child isChild
    simp [children, stored, childrenOf] at isChild
  · intro id
    rw [stored]
    trivial

/-- The number of children is the one that the shape fixes. -/
theorem admits_children (arena : Arena) (id : NodeId) :
    (arena.shape id).admits (arena.children id).length := by
  unfold shape children
  cases arena.stored id <;> simp [shapeOf, childrenOf, Shape.admits, Shape.arity]

/-- A range bounds the number of children. -/
theorem length_children_le (arena : Arena) (id : NodeId) :
    (arena.children id).length ≤ 65535 := by
  unfold children
  cases arena.stored id with
  | call function arguments =>
      exact StorageRange.length_slice_le arguments arena.childLists
  | _ => simp [childrenOf]

/-- A range bounds the number of parameters. -/
theorem length_parameters_le (arena : Arena) {id : NodeId}
    {parameters : List Parameter}
    (isLambda : arena.shape id = .lambda parameters) :
    parameters.length ≤ 65535 := by
  unfold shape at isLambda
  cases stored : arena.stored id with
  | lambda range body =>
      rw [stored] at isLambda
      obtain rfl := Shape.lambda.inj isLambda
      exact StorageRange.length_slice_le range arena.parameters
  | _ => simp [stored, shapeOf] at isLambda

namespace WellFormed

variable {arena : Arena}

theorem contains_child (wellFormed : arena.WellFormed) {id child : NodeId}
    (isChild : child ∈ arena.children id) : arena.Contains child :=
  Nat.lt_trans (wellFormed.older id child isChild) (contains_of_child isChild)

end WellFormed

section Extension

variable {before after : Arena}

theorem Extends.shape (grows : before.Extends after)
    (wellFormed : before.WellFormed) {id : NodeId}
    (inside : before.Contains id) : after.shape id = before.shape id := by
  unfold Arena.shape
  rw [grows.stored inside, grows.shapeOf (wellFormed.covers id)]

theorem Extends.children (grows : before.Extends after)
    (wellFormed : before.WellFormed) {id : NodeId}
    (inside : before.Contains id) :
    after.children id = before.children id := by
  unfold Arena.children
  rw [grows.stored inside, grows.childrenOf (wellFormed.covers id)]

/-- Entries that no node refers to yet leave an arena well-formed. -/
theorem WellFormed.of_same_nodes (wellFormed : before.WellFormed)
    (grows : before.Extends after) (same : after.nodes = before.nodes) :
    after.WellFormed := by
  have stored (id : NodeId) : after.stored id = before.stored id := by
    simp only [Arena.stored, same]
  constructor
  · simpa [size, same] using wellFormed.size_le
  · intro id child isChild
    rw [Arena.children, stored, grows.childrenOf (wellFormed.covers id)] at isChild
    exact wellFormed.older id child isChild
  · intro id
    rw [stored]
    exact grows.covers (wellFormed.covers id)

end Extension

/-- One node is added to an arena, of a given shape over given children. -/
structure Adds (before : Arena) (shape : Shape) (children : List NodeId)
    (id : NodeId) (after : Arena) : Prop where
  grows : before.Extends after
  index_eq : id.index = before.size
  size_eq : after.size = before.size + 1
  shape_eq : after.shape id = shape
  children_eq : after.children id = children
  wellFormed : after.WellFormed

namespace Adds

variable {before middle after : Arena} {shape : Shape}
  {children : List NodeId} {id : NodeId}

theorem contains (adds : before.Adds shape children id after) :
    after.Contains id := by
  simp only [Contains, adds.index_eq, adds.size_eq]
  omega

/-- Entries stored before the node count as a part of its addition. -/
theorem of_same_nodes (grows : before.Extends middle)
    (same : middle.nodes = before.nodes)
    (adds : middle.Adds shape children id after) :
    before.Adds shape children id after := by
  have size : middle.size = before.size := by
    simp only [Arena.size, same]
  exact
    { grows := grows.trans adds.grows
      index_eq := adds.index_eq.trans size
      size_eq := by rw [adds.size_eq, size]
      shape_eq := adds.shape_eq
      children_eq := adds.children_eq
      wellFormed := adds.wellFormed }

end Adds

/-- An allocation that wants an extent, with lists of at most `longest` entries,
has failed for want of capacity; the arena is still well-formed. -/
structure Exhausts (wanted : Extent) (longest : Nat) (cause : AllocationError)
    (after : Arena) : Prop where
  exceeds : cause.Exceeds wanted longest
  wellFormed : after.WellFormed

section Allocation

variable {before : Arena} {wanted : Extent} (longest : Nat)

theorem stored_push {node : StoredNode} {other : NodeId}
    (elsewhere : other.index ≠ before.size) :
    ({ before with nodes := before.nodes.push node } : Arena).stored other =
      before.stored other := by
  simp only [size] at elsewhere
  simp [stored, Array.getElem?_push, elsewhere]

/-- A pushed node refers to what it referred to before it was stored. -/
theorem adds_of_pushed {node : StoredNode} (wellFormed : before.WellFormed)
    (covered : before.Covers node)
    (older : ∀ child ∈ before.childrenOf node, before.Contains child)
    (addressable : before.size < UInt32.size) :
    before.Adds (before.shapeOf node) (before.childrenOf node)
      (NodeId.ofIndex before.size)
      { before with nodes := before.nodes.push node } := by
  have grows : before.Extends
      { before with nodes := before.nodes.push node } :=
    ⟨by simp, List.prefix_refl _, List.prefix_refl _⟩
  have index := NodeId.index_ofIndex addressable
  have stored : ({ before with nodes := before.nodes.push node } : Arena).stored
      (NodeId.ofIndex before.size) = node := by
    rw [Arena.stored, index]
    simp [size]
  have size : ({ before with nodes := before.nodes.push node } : Arena).size =
      before.size + 1 := by
    simp [Arena.size]
  refine ⟨grows, index, size, ?_, ?_, ?_⟩
  · rw [shape, stored, grows.shapeOf covered]
  · rw [children, stored, grows.childrenOf covered]
  constructor
  · omega
  · intro other child isChild
    rw [children] at isChild
    by_cases elsewhere : other.index = before.size
    · have same := NodeId.index_injective (elsewhere.trans index.symm)
      rw [same, stored, grows.childrenOf covered] at isChild
      rw [elsewhere]
      exact older child isChild
    · rw [stored_push elsewhere,
        grows.childrenOf (wellFormed.covers other)] at isChild
      exact wellFormed.older other child isChild
  · intro other
    by_cases elsewhere : other.index = before.size
    · have same := NodeId.index_injective (elsewhere.trans index.symm)
      rw [same, stored]
      exact grows.covers covered
    · rw [stored_push elsewhere]
      exact grows.covers (wellFormed.covers other)

theorem leads_push {node : StoredNode} (wellFormed : before.WellFormed)
    (covered : before.Covers node)
    (older : ∀ child ∈ before.childrenOf node, before.Contains child)
    (room : before.extent + ⟨1, 0, 0⟩ ≤ wanted) :
    Leads (push node) before
      (fun id after =>
        before.Adds (before.shapeOf node) (before.childrenOf node) id after ∧
          after.extent = before.extent + ⟨1, 0, 0⟩)
      (Exhausts wanted longest) := by
  unfold Leads push
  by_cases addressable : before.size < UInt32.size
  · rw [if_pos (by simpa [isAddressable, size] using addressable)]
    exact ⟨adds_of_pushed wellFormed covered older addressable,
      by simp [extent, size, Extent.ext_iff]⟩
  · rw [if_neg (by simpa [isAddressable, size] using addressable)]
    have wantedNodes : before.size + 1 ≤ wanted.nodes := room.1
    refine ⟨?_, wellFormed⟩
    simp only [AllocationError.Exceeds]
    omega

variable {longest}

/-- Entries of a storage are appended, and a range is made that holds them. -/
structure Stores {Entry : Type} (storage : Arena → Array Entry)
    (before : Arena) (entries : List Entry) (range : StorageRange)
    (after : Arena) : Prop where
  grows : before.Extends after
  nodes_eq : after.nodes = before.nodes
  slice_eq : range.slice (storage after) = entries
  next_eq : range.next = (storage after).size

/-- Entries are stored unless their storage is full or they are too many. -/
theorem leads_pushEntries {Entry : Type} {storage : Arena → Array Entry}
    {append : Arena → Arena} {full tooMany : AllocationError}
    {entries : List Entry} (wellFormed : before.WellFormed)
    (grows : before.Extends (append before))
    (sameNodes : (append before).nodes = before.nodes)
    (appended : storage (append before) = storage before ++ entries)
    (whenFull : UInt32.size ≤ (storage before).size →
      full.Exceeds wanted longest)
    (whenLong : 65535 < entries.length → tooMany.Exceeds wanted longest) :
    Leads (pushEntries storage append full tooMany entries) before
      (fun range after =>
        Stores storage before entries range after ∧ after = append before)
      (Exhausts wanted longest) := by
  unfold Leads
  by_cases addressable : (storage before).size < UInt32.size
  · by_cases fits : entries.length ≤ 65535
    · simp only [pushEntries, isAddressable, rangeLimit, addressable, fits,
        decide_true, if_true]
      refine ⟨⟨grows, sameNodes, ?_, ?_⟩, trivial⟩
      · rw [appended, StorageRange.slice_appended addressable fits]
      · rw [appended, StorageRange.next_appended addressable fits]
        simp [← Array.length_toList]
    · simp only [pushEntries, isAddressable, rangeLimit, addressable, fits,
        decide_true, if_true, if_false]
      exact ⟨whenLong (by omega), wellFormed.of_same_nodes grows sameNodes⟩
  · simp only [pushEntries, isAddressable, addressable, decide_false,
      Bool.false_eq_true, if_false]
    exact ⟨whenFull (by omega), wellFormed⟩

theorem leads_pushArguments (wellFormed : before.WellFormed)
    (arguments : List NodeId)
    (room : before.extent + ⟨0, arguments.length, 0⟩ ≤ wanted)
    (short : arguments.length ≤ longest) :
    Leads (pushArguments arguments) before
      (fun range after =>
        Stores childLists before arguments range after ∧
          after.extent = before.extent + ⟨0, arguments.length, 0⟩)
      (Exhausts wanted longest) := by
  have wantedArguments :
      before.childLists.size + arguments.length ≤ wanted.arguments := room.2.1
  refine (leads_pushEntries wellFormed (before.extends_arguments arguments) rfl
    rfl ?_ ?_).imp ?_
  · intro full
    exact Nat.le_trans full (Nat.le_trans (Nat.le_add_right _ _) wantedArguments)
  · exact fun long => ⟨long, short⟩
  · rintro range after ⟨stores, rfl⟩
    exact ⟨stores, by simp [extent, size, Extent.ext_iff, ← Array.length_toList]⟩

theorem leads_pushParameters (wellFormed : before.WellFormed)
    (parameters : List Parameter)
    (room : before.extent + ⟨0, 0, parameters.length⟩ ≤ wanted)
    (short : parameters.length ≤ longest) :
    Leads (pushParameters parameters) before
      (fun range after =>
        Stores Arena.parameters before parameters range after ∧
          after.extent = before.extent + ⟨0, 0, parameters.length⟩)
      (Exhausts wanted longest) := by
  have wantedParameters :
      before.parameters.size + parameters.length ≤ wanted.parameters :=
    room.2.2
  refine (leads_pushEntries wellFormed (before.extends_parameters parameters)
    rfl rfl ?_ ?_).imp ?_
  · intro full
    exact Nat.le_trans full
      (Nat.le_trans (Nat.le_add_right _ _) wantedParameters)
  · exact fun long => ⟨long, short⟩
  · rintro range after ⟨stores, rfl⟩
    exact ⟨stores, by simp [extent, size, Extent.ext_iff, ← Array.length_toList]⟩

theorem entry_of_getElem? {nodes : List NodeId} {index : Nat} {child : NodeId}
    (found : nodes[index]? = some child) (arena : Arena) :
    entry nodes index arena = .ok child arena := by
  simp only [entry, found]
  rfl

/-- A node over stored entries counts them towards its extent. -/
theorem Adds.of_stored {Entry : Type} {storage : Arena → Array Entry}
    {middle after : Arena} {entries : List Entry} {range : StorageRange}
    {shape : Shape} {children : List NodeId} {id : NodeId} {extra : Extent}
    (stores : Stores storage before entries range middle)
    (stored : middle.extent = before.extent + extra)
    (adds : middle.Adds shape children id after ∧
      after.extent = middle.extent + ⟨1, 0, 0⟩) :
    before.Adds shape children id after ∧
      after.extent = before.extent + (extra + ⟨1, 0, 0⟩) := by
  refine ⟨adds.1.of_same_nodes stores.grows stores.nodes_eq, ?_⟩
  rw [adds.2, stored, Extent.add_assoc]

theorem leads_pushCall {function : FunctionName} {arguments : List NodeId}
    (wellFormed : before.WellFormed)
    (older : ∀ child ∈ arguments, before.Contains child)
    (room : before.extent + ⟨1, arguments.length, 0⟩ ≤ wanted)
    (short : arguments.length ≤ longest) :
    Leads (pushCall function arguments) before
      (fun id after =>
        before.Adds (.call function) arguments id after ∧
          after.extent = before.extent + ⟨1, arguments.length, 0⟩)
      (Exhausts wanted longest) := by
  have split : (⟨1, arguments.length, 0⟩ : Extent) =
      ⟨0, arguments.length, 0⟩ + ⟨1, 0, 0⟩ :=
    rfl
  rw [split, ← Extent.add_assoc] at room
  apply leads_bind
    (leads_pushArguments wellFormed arguments (Extent.le_of_add_le room) short)
  rintro range middle ⟨stores, stored⟩
  have covered : middle.Covers (.call function range) :=
    Nat.le_of_eq stores.next_eq
  have arguments_eq : middle.childrenOf (.call function range) = arguments :=
    stores.slice_eq
  rw [← stored] at room
  have leads := leads_push longest
    (wellFormed.of_same_nodes stores.grows stores.nodes_eq) covered
    (by
      rw [arguments_eq]
      exact fun child isChild => stores.grows.contains (older child isChild))
    room
  rw [arguments_eq] at leads
  exact leads.imp fun id after adds => Adds.of_stored stores stored adds

theorem leads_pushLambda (longest : Nat) {range : StorageRange} {children : List NodeId}
    (wellFormed : before.WellFormed)
    (inside : range.next ≤ before.parameters.size)
    (single : children.length = 1)
    (older : ∀ child ∈ children, before.Contains child)
    (room : before.extent + ⟨1, 0, 0⟩ ≤ wanted) :
    Leads (do push (.lambda range (← entry children 0))) before
      (fun id after =>
        before.Adds (.lambda (range.slice before.parameters)) children id
            after ∧
          after.extent = before.extent + ⟨1, 0, 0⟩)
      (Exhausts wanted longest) := by
  obtain ⟨body, rfl⟩ := List.length_eq_one_iff.mp single
  exact leads_push longest wellFormed
    (show before.Covers (.lambda range body) from inside) older room

/-- Allocating over children that fit a shape adds a node of that shape. -/
theorem leads_allocate {shape : Shape} {children : List NodeId}
    (wellFormed : before.WellFormed) (fits : shape.admits children.length)
    (older : ∀ child ∈ children, before.Contains child)
    (room : before.extent + shape.extent children.length ≤ wanted)
    (short : ∀ function, shape = .call function → children.length ≤ longest)
    (shortParameters : ∀ parameters, shape = .lambda parameters →
      parameters.length ≤ longest) :
    Leads (allocate shape children) before
      (fun id after =>
        before.Adds shape children id after ∧
          after.extent = before.extent + shape.extent children.length)
      (Exhausts wanted longest) := by
  cases shape with
  | value literal =>
      obtain rfl := List.eq_nil_of_length_eq_zero (Shape.count_of_admits fits rfl)
      exact leads_push longest wellFormed
        (show before.Covers (.value literal) from trivial) older room
  | reference name =>
      obtain rfl := List.eq_nil_of_length_eq_zero (Shape.count_of_admits fits rfl)
      exact leads_push longest wellFormed
        (show before.Covers (.reference name) from trivial) older room
  | unary op =>
      obtain ⟨operand, rfl⟩ :=
        List.length_eq_one_iff.mp (Shape.count_of_admits fits rfl)
      exact leads_push longest wellFormed
        (show before.Covers (.unary op operand) from trivial) older room
  | binary op =>
      obtain ⟨left, right, rfl⟩ :=
        List.length_eq_two.mp (Shape.count_of_admits fits rfl)
      exact leads_push longest wellFormed
        (show before.Covers (.binary op left right) from trivial) older room
  | call function =>
      exact leads_pushCall wellFormed older room (short function rfl)
  | lambda parameters =>
      have split : Shape.extent (.lambda parameters) children.length =
          ⟨0, 0, parameters.length⟩ + ⟨1, 0, 0⟩ := by
        ext <;> simp [Shape.extent]
      rw [split, ← Extent.add_assoc] at room
      rw [split]
      apply leads_bind (leads_pushParameters wellFormed parameters
        (Extent.le_of_add_le room) (shortParameters parameters rfl))
      rintro range middle ⟨stores, stored⟩
      rw [← stored] at room
      have leads := leads_pushLambda longest
        (wellFormed.of_same_nodes stores.grows stores.nodes_eq)
        (Nat.le_of_eq stores.next_eq) (Shape.count_of_admits fits rfl)
        (fun child isChild => stores.grows.contains (older child isChild)) room
      rw [stores.slice_eq] at leads
      exact leads.imp fun id after adds => Adds.of_stored stores stored adds

/-- A copy is allocated for the node that is stored. -/
theorem rebuild_eq (source : NodeId) (children : List NodeId) :
    rebuild source children before =
      (match before.stored source with
      | .value literal => push (.value literal)
      | .reference name => push (.reference name)
      | .unary op _ => do push (.unary op (← entry children 0))
      | .binary op _ _ => do
          push (.binary op (← entry children 0) (← entry children 1))
      | .call function _ => pushCall function children
      | .lambda parameters _ => do
          push (.lambda parameters (← entry children 0))) before :=
  rfl

theorem rebuild_lambda {source body : NodeId} {range : StorageRange}
    {children : List NodeId} (stored : before.stored source = .lambda range body) :
    rebuild source children before =
      (do push (.lambda range (← entry children 0))) before := by
  rw [rebuild_eq, stored]

/-- Except for a lambda, whose parameters are stored already, a node is copied by
allocating for its shape. -/
theorem rebuild_eq_allocate {source : NodeId} {children : List NodeId}
    (noLambda : ∀ parameters, before.shape source ≠ .lambda parameters) :
    rebuild source children before =
      allocate (before.shape source) children before := by
  rw [rebuild_eq]
  unfold shape at *
  cases stored : before.stored source with
  | lambda range body =>
      rw [stored] at noLambda
      exact (noLambda _ rfl).elim
  | _ => rfl

/-- Copying a node over other children adds a node of its shape. -/
theorem leads_rebuild {source : NodeId} {children : List NodeId}
    (wellFormed : before.WellFormed)
    (fits : (before.shape source).admits children.length)
    (older : ∀ child ∈ children, before.Contains child)
    (room : before.extent +
      (before.shape source).sharingExtent children.length ≤ wanted)
    (short : ∀ function, before.shape source = .call function →
      children.length ≤ longest) :
    Leads (rebuild source children) before
      (fun id after =>
        before.Adds (before.shape source) children id after ∧
          after.extent = before.extent +
            (before.shape source).sharingExtent children.length)
      (Exhausts wanted longest) := by
  cases stored : before.stored source with
  | lambda range body =>
      have covered := wellFormed.covers source
      have shape : before.shape source =
          .lambda (range.slice before.parameters) := by
        simp only [Arena.shape, stored, shapeOf]
      rw [stored] at covered
      have shares : (before.shape source).sharingExtent children.length =
          ⟨1, 0, 0⟩ := by
        rw [shape]
        rfl
      rw [shares] at room ⊢
      rw [shape] at fits ⊢
      have leads := leads_pushLambda longest wellFormed covered
        (Shape.count_of_admits fits rfl) older room
      simpa only [Leads, rebuild_lambda stored] using leads
  | _ =>
      have noLambda : ∀ parameters, before.shape source ≠ .lambda parameters := by
        simp [Arena.shape, stored, shapeOf]
      have shares : (before.shape source).sharingExtent children.length =
          (before.shape source).extent children.length := by
        simp [Arena.shape, stored, shapeOf, Shape.sharingExtent, Shape.extent]
      rw [shares] at room ⊢
      have leads := leads_allocate wellFormed fits older room short
        fun parameters isLambda => (noLambda parameters isLambda).elim
      simpa only [Leads, rebuild_eq_allocate noLambda] using leads

end Allocation

end Arena

end FormulaEngine
