import FormulaEngine.Arena.Copy
import Mathlib.Algebra.GroupWithZero.Nat
import Mathlib.Tactic.Ext

/-!
# Capacity

The extent of an arena says how full its three storages are, and the extent of a
node says what its allocation takes up.  An allocation may fail only because the
extent it wants, or a list it is given, exceeds what node numbers and ranges can
tell apart.
-/

namespace FormulaEngine

/-- How many nodes, call arguments and lambda parameters are stored. -/
@[ext]
structure Extent where
  nodes : Nat
  arguments : Nat
  parameters : Nat

namespace Extent

instance : Zero Extent :=
  ⟨⟨0, 0, 0⟩⟩

instance : Add Extent :=
  ⟨fun first second =>
    ⟨first.nodes + second.nodes, first.arguments + second.arguments,
      first.parameters + second.parameters⟩⟩

instance : LE Extent :=
  ⟨fun small large =>
    small.nodes ≤ large.nodes ∧ small.arguments ≤ large.arguments ∧
      small.parameters ≤ large.parameters⟩

@[simp]
theorem nodes_add (first second : Extent) :
    (first + second).nodes = first.nodes + second.nodes :=
  rfl

@[simp]
theorem arguments_add (first second : Extent) :
    (first + second).arguments = first.arguments + second.arguments :=
  rfl

@[simp]
theorem parameters_add (first second : Extent) :
    (first + second).parameters = first.parameters + second.parameters :=
  rfl

theorem le_iff {small large : Extent} :
    small ≤ large ↔ small.nodes ≤ large.nodes ∧
      small.arguments ≤ large.arguments ∧
      small.parameters ≤ large.parameters :=
  Iff.rfl

protected theorem le_refl (extent : Extent) : extent ≤ extent :=
  ⟨Nat.le_refl _, Nat.le_refl _, Nat.le_refl _⟩

protected theorem add_assoc (first second third : Extent) :
    first + second + third = first + (second + third) := by
  ext <;> simp only [nodes_add, arguments_add, parameters_add] <;> omega

protected theorem add_comm (first second : Extent) :
    first + second = second + first := by
  ext <;> simp only [nodes_add, arguments_add, parameters_add] <;> omega

protected theorem add_zero (extent : Extent) : extent + 0 = extent :=
  rfl

protected theorem zero_add (extent : Extent) : 0 + extent = extent :=
  (Extent.add_comm 0 extent).trans extent.add_zero

/-- The first of two additions wants no more than both. -/
protected theorem le_of_add_le {first second wanted : Extent}
    (room : first + second ≤ wanted) : first ≤ wanted := by
  simp only [le_iff, nodes_add, arguments_add, parameters_add] at *
  omega

theorem nodes_sum {Item : Type} (items : List Item) (extent : Item → Extent) :
    (items.map extent).sum.nodes =
      (items.map fun item => (extent item).nodes).sum := by
  induction items with
  | nil => rfl
  | cons item items ih =>
      rw [List.map_cons, List.sum_cons, List.map_cons, List.sum_cons, nodes_add,
        ih]

/-- Every node can have a number, and every range a start. -/
def Fits (extent : Extent) : Prop :=
  extent.nodes ≤ UInt32.size ∧ extent.arguments < UInt32.size ∧
    extent.parameters < UInt32.size

end Extent

/-- What is exceeded when an allocation that wants an extent, with lists of at
most `longest` entries, fails for a cause.  A missing child exceeds nothing. -/
def AllocationError.Exceeds (wanted : Extent) (longest : Nat) :
    AllocationError → Prop
  | nodes => UInt32.size < wanted.nodes
  | childLists => UInt32.size ≤ wanted.arguments
  | parameters => UInt32.size ≤ wanted.parameters
  | callArguments count => 65535 < count ∧ count ≤ longest
  | lambdaParameters count => 65535 < count ∧ count ≤ longest
  | missing _ _ => False

theorem Extent.Fits.not_exceeds {wanted : Extent} (fits : wanted.Fits)
    {longest : Nat} (short : longest ≤ 65535) (cause : AllocationError) :
    ¬ cause.Exceeds wanted longest := by
  obtain ⟨nodes, arguments, parameters⟩ := fits
  cases cause <;> simp only [AllocationError.Exceeds, not_false_eq_true] <;>
    omega

/-- The extent of a node of a shape with a number of children. -/
def Shape.extent (shape : Shape) (count : Nat) : Extent :=
  match shape with
  | call _ => ⟨1, count, 0⟩
  | lambda parameters => ⟨1, 0, parameters.length⟩
  | _ => ⟨1, 0, 0⟩

/-- The extent of a node that shares its parameters with another one. -/
def Shape.sharingExtent (shape : Shape) (count : Nat) : Extent :=
  { shape.extent count with parameters := 0 }

@[simp]
theorem Shape.nodes_extent (shape : Shape) (count : Nat) :
    (shape.extent count).nodes = 1 := by
  cases shape <;> rfl

@[simp]
theorem Shape.nodes_sharingExtent (shape : Shape) (count : Nat) :
    (shape.sharingExtent count).nodes = 1 :=
  shape.nodes_extent count

namespace Arena

/-- How full the storages of an arena are. -/
def extent (arena : Arena) : Extent :=
  ⟨arena.size, arena.childLists.size, arena.parameters.size⟩

/-- The extent of a node. -/
def nodeExtent (source : Arena) (id : NodeId) : Extent :=
  (source.shape id).extent (source.children id).length

/-- The extent of a copy of the nodes below a root. -/
def copyExtent (source : Arena) (root : NodeId) : Extent :=
  ((source.postOrder root).map source.nodeExtent).sum

end Arena

end FormulaEngine
