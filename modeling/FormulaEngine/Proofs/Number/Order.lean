import FormulaEngine.Number.Numeral
import FormulaEngine.Proofs.Decimal.Order

/-!
# Comparing the other way round

Comparing two numerals in the other order swaps the answer, whatever their
representations; a NaN compares to nothing in either order.  So equality of
numerals does not depend on which of them comes first.
-/

namespace FormulaEngine

namespace Binary64

open Float.Model (UnpackedFloat)

theorem unpacked_compare_swap (left right : UnpackedFloat) :
    right.compare left = (left.compare right).map Ordering.swap := by
  -- Infinities and numbers other than zero are ordered by their signs first.
  cases left with
  | notANumber => cases right <;> rfl
  | infinity sign =>
      cases right with
      | infinity other => cases sign <;> cases other <;> rfl
      | _ => cases sign <;> rfl
  | zero =>
      cases right with
      | infinity other | finite other => cases other <;> rfl
      | _ => rfl
  | finite sign mantissa exponent =>
      cases right with
      | notANumber => rfl
      | infinity other => cases other <;> rfl
      | zero => cases sign <;> rfl
      | finite other otherMantissa otherExponent =>
          have magnitudes : (compare otherExponent exponent).then
                (compare otherMantissa mantissa) =
              ((compare exponent otherExponent).then
                (compare mantissa otherMantissa)).swap := by
            rw [Ordering.swap_then, ← Std.OrientedOrd.eq_swap,
              ← Std.OrientedOrd.eq_swap]
          cases sign <;> cases other
          case positive.positive => exact congrArg some magnitudes
          case negative.negative =>
            exact congrArg (fun order => some (Ordering.swap order)) magnitudes
          all_goals rfl

theorem compare?_eq (left right : Float) :
    compare? left right =
      left.toModel.unpack.compare right.toModel.unpack := by
  have less (first second : Float) : first < second ↔
      first.toModel.unpack.compare second.toModel.unpack = some .lt :=
    decide_eq_true_iff.trans beq_iff_eq
  have equal : (left == right) =
      (left.toModel.unpack.compare right.toModel.unpack == some .eq) :=
    rfl
  rw [compare?, equal]
  simp only [less, unpacked_compare_swap left.toModel.unpack]
  cases left.toModel.unpack.compare right.toModel.unpack with
  | none => rfl
  | some order => cases order <;> rfl

theorem compare?_swap (left right : Float) :
    compare? right left = (compare? left right).map Ordering.swap := by
  rw [compare?_eq, compare?_eq, unpacked_compare_swap]

end Binary64

theorem Decimal.order_swap (left right : Decimal) :
    right.order left = (left.order right).swap := by
  rw [order_eq, order_eq]
  exact Std.OrientedOrd.eq_swap

namespace Numeral

theorem compare?_swap (left right : Numeral) :
    right.compare? left = (left.compare? right).map Ordering.swap := by
  cases left <;> cases right
  case floating.floating left right => exact Binary64.compare?_swap left right
  case decimal.decimal left right =>
    exact congrArg some (Decimal.order_swap left right)
  case floating.decimal => rfl
  case decimal.floating left right =>
    rw [compare?, compare?]
    cases compareFloatToDecimal? right left with
    | none => rfl
    | some order => cases order <;> rfl

theorem isEqual_comm (left right : Numeral) :
    left.isEqual right = right.isEqual left := by
  rw [isEqual, isEqual, left.compare?_swap right]
  cases left.compare? right with
  | none => rfl
  | some order => cases order <;> rfl

end Numeral

end FormulaEngine
