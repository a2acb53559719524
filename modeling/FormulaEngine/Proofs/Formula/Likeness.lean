import FormulaEngine.Proofs.Formula.Position
import FormulaEngine.Proofs.Number.Order

/-!
# Trees that are alike

Two trees are alike when they have subtrees at the same positions, with shapes
that agree.  Which of the trees comes first does not matter, since it does not
matter for shapes.
-/

namespace FormulaEngine

theorem Literal.agrees_comm (left right : Literal) :
    left.agrees right = right.agrees left := by
  cases left <;> cases right <;>
    simp only [agrees, Numeral.isEqual_comm, Bool.beq_comm]

theorem Shape.agrees_comm (left right : Shape) :
    left.agrees right = right.agrees left := by
  cases left <;> cases right <;>
    simp only [agrees, Literal.agrees_comm, eq_comm]

section Relation

variable {First Second : Type} {related : First → Second → Prop}
  {first : Option First} {second : Option Second}

theorem rel_bind {Third Fourth : Type} {next : Third → Fourth → Prop}
    {after : First → Option Third} {afterSecond : Second → Option Fourth}
    (rel : Option.Rel related first second)
    (steps : ∀ value other, related value other →
      Option.Rel next (after value) (afterSecond other)) :
    Option.Rel next (first.bind after) (second.bind afterSecond) := by
  cases rel with
  | none => exact .none
  | some holds => exact steps _ _ holds

theorem rel_flip {flipped : Second → First → Prop}
    (rel : Option.Rel related first second)
    (flips : ∀ value other, related value other → flipped other value) :
    Option.Rel flipped second first := by
  cases rel with
  | none => exact .none
  | some holds => exact .some (flips _ _ holds)

end Relation

namespace Tree

/-- Wherever one of two trees has a subtree the other has one, and their shapes
agree. -/
def Alike (left right : Tree) : Prop :=
  ∀ position, Option.Rel
    (fun first second => first.shape.agrees second.shape = true)
    (left.subtreeAt? position) (right.subtreeAt? position)

theorem alike_node {leftShape rightShape : Shape} {lefts rights : List Tree} :
    (node leftShape lefts).Alike (node rightShape rights) ↔
      leftShape.agrees rightShape = true ∧
        ∀ index : Nat, Option.Rel Alike lefts[index]? rights[index]? := by
  constructor
  · intro alike
    have root : leftShape.agrees rightShape = true := by
      simpa [subtreeAt?] using alike []
    refine ⟨root, fun index => ?_⟩
    have below := fun position => alike (index :: position)
    simp only [subtreeAt?, children_node] at below
    cases left : lefts[index]? <;> cases right : rights[index]? <;>
      rw [left, right] at below
    case none.none => exact .none
    case some.some => exact .some below
    all_goals exact absurd (below []) (by simp [subtreeAt?])
  · rintro ⟨root, below⟩ (_ | ⟨index, position⟩)
    · exact .some root
    · exact rel_bind (below index) fun _ _ alike => alike position

mutual

/-- The test for likeness compares the trees position by position. -/
theorem isAlike_iff : (left right : Tree) →
    (left.isAlike right = true ↔ left.Alike right)
  | node leftShape lefts, node rightShape rights => by
      rw [isAlike, Bool.and_eq_true, areAlike_iff lefts rights, alike_node]

theorem areAlike_iff : (lefts rights : List Tree) →
    (areAlike lefts rights = true ↔
      ∀ index : Nat, Option.Rel Alike lefts[index]? rights[index]?)
  | [], [] => by simp [areAlike]
  | [], _ :: _ => by
      simp only [areAlike, Bool.false_eq_true, false_iff]
      exact fun related => absurd (related 0) (by simp)
  | _ :: _, [] => by
      simp only [areAlike, Bool.false_eq_true, false_iff]
      exact fun related => absurd (related 0) (by simp)
  | left :: lefts, right :: rights => by
      rw [areAlike, Bool.and_eq_true, isAlike_iff left right,
        areAlike_iff lefts rights]
      constructor
      · rintro ⟨first, rest⟩ (_ | index)
        · exact .some first
        · exact rest index
      · intro all
        exact ⟨by simpa using all 0, fun index => all (index + 1)⟩

end

theorem Alike.symm {left right : Tree} (alike : left.Alike right) :
    right.Alike left := by
  intro position
  apply rel_flip (alike position)
  intro first second agree
  rwa [Shape.agrees_comm]

theorem isAlike_comm (left right : Tree) :
    left.isAlike right = right.isAlike left := by
  rw [Bool.eq_iff_iff, isAlike_iff, isAlike_iff]
  exact ⟨Alike.symm, Alike.symm⟩

theorem areAlike_eq (lefts rights : List Tree) :
    areAlike lefts rights =
      (lefts.length == rights.length &&
        (lefts.zip rights).all fun pair => pair.1.isAlike pair.2) := by
  induction lefts generalizing rights with
  | nil => cases rights <;> rfl
  | cons left lefts ih =>
      cases rights with
      | nil => rfl
      | cons right rights =>
          rw [areAlike, ih, Bool.and_left_comm]
          simp

end Tree

end FormulaEngine
