import FormulaEngine.Number.Reduction
import FormulaEngine.Proofs.Binary64.Shortest
import FormulaEngine.Proofs.Number.Order

/-!
# Relations on numerals

Numerals can be compared in two ways.  A relation brings their operands to a
common representation first and compares them there, without a look at the math
context; the order of numerals takes each pair of kinds by itself, and turns the
comparison of a float to a decimal around where the decimal comes first.  The
answers are the same, except that a decimal and a float that is not finite have
an order but no representation to meet in.
-/

namespace FormulaEngine

/-- The error of a float that has no decimal. -/
def Operand.missingDecimal (value : Float) : NumberError :=
  .notRepresentable (Binary64.write value) Representation.bigDecimal.name

namespace Numeral

/-- The float itself where it is infinite or no number. -/
def nonFinite? (value : Float) : Option Float :=
  match Binary64.parts value with
  | .nan | .infinite _ => some value
  | .finite .. => none

/-- The float that keeps two numerals from meeting: one that is not finite, beside
a decimal. -/
def obstacle? : Numeral → Numeral → Option Float
  | floating value, decimal _ | decimal _, floating value => nonFinite? value
  | floating _, floating _ | decimal _, decimal _ => none

/-- Beside decimals, a float is either an obstacle or taken as the decimal that it
is compared as. -/
inductive MeetsDecimals (value : Float) : Prop
  | obstacle (isObstacle : nonFinite? value = some value)
      (fails : Operand.decimalOfFloat value =
        .error (Operand.missingDecimal value))
  | decimal (shortest : Decimal) (isFinite : nonFinite? value = none)
      (becomes : Operand.decimalOfFloat value = .ok shortest)
      (compares : ∀ decimal,
        compareFloatToDecimal? value decimal = some (shortest.order decimal))

theorem meetsDecimals (value : Float) : MeetsDecimals value := by
  cases isParts : Binary64.parts value with
  | nan | infinite negative =>
      apply MeetsDecimals.obstacle
      · simp [nonFinite?, isParts]
      · simp [Operand.decimalOfFloat, Decimal.ofFloat?, isParts,
          Operand.missingDecimal]
  | finite negative mantissa exponent =>
      obtain ⟨shortest, becomes, -⟩ := Decimal.ofFloat?_eq isParts
      apply MeetsDecimals.decimal shortest
      · simp [nonFinite?, isParts]
      · simp [Operand.decimalOfFloat, becomes]
      · intro decimal
        simp [compareFloatToDecimal?, isParts, becomes]

end Numeral

namespace Relation

theorem holds_float_decimal (relation : Relation) (value : Float)
    (decimal : Decimal) :
    relation.holds (.float value) (.bigDecimal decimal) =
      (Operand.decimalOfFloat value).map fun shortest =>
        relation.test (some (shortest.order decimal)) := by
  change ((Operand.decimalOfFloat value >>= _) >>= _) = _
  cases Operand.decimalOfFloat value <;> rfl

theorem holds_decimal_float (relation : Relation) (value : Float)
    (decimal : Decimal) :
    relation.holds (.bigDecimal decimal) (.float value) =
      (Operand.decimalOfFloat value).map fun shortest =>
        relation.test (some (decimal.order shortest)) := by
  change ((Operand.decimalOfFloat value >>= _) >>= _) = _
  cases Operand.decimalOfFloat value <;> rfl

/-- Relations on numerals are those of their order, and fail only where a float
that is not finite stands beside a decimal. -/
theorem holds_numerals (relation : Relation) (left right : Numeral) :
    relation.holds left.toOperand right.toOperand =
      match left.obstacle? right with
      | some value => .error (Operand.missingDecimal value)
      | none => .ok (relation.test (left.compare? right)) := by
  cases left with
  | floating left =>
      cases right with
      | floating right => rfl
      | decimal right =>
          change relation.holds (.float left) (.bigDecimal right) = _
          rw [holds_float_decimal, Numeral.obstacle?]
          cases Numeral.meetsDecimals left with
          | obstacle isObstacle fails =>
              rw [fails, isObstacle]
              rfl
          | decimal shortest isFinite becomes compares =>
              rw [becomes, isFinite, Numeral.compare?, compares]
              rfl
  | decimal left =>
      cases right with
      | floating right =>
          change relation.holds (.bigDecimal left) (.float right) = _
          rw [holds_decimal_float, Numeral.obstacle?]
          cases Numeral.meetsDecimals right with
          | obstacle isObstacle fails =>
              rw [fails, isObstacle]
              rfl
          | decimal shortest isFinite becomes compares =>
              rw [becomes, isFinite, Numeral.compare?, compares, Option.map_some,
                ← Decimal.order_swap]
              rfl
      | decimal right => rfl

/-- An infinity lies beyond a decimal, but the relation finds no decimal for it. -/
example :
    (Numeral.decimal Decimal.one).compare? (.floating Binary64.infinity) = some .lt ∧
      Relation.lt.holds (.bigDecimal Decimal.one) (.float Binary64.infinity) =
        .error (.notRepresentable "inf" "big decimal") :=
  ⟨rfl, rfl⟩

end Relation

end FormulaEngine
