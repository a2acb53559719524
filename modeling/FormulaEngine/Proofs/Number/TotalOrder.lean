import FormulaEngine.Proofs.Binary64.Shortest
import FormulaEngine.Proofs.Number.Order
import Mathlib.Order.WithBot

/-!
# The order of numerals

Every numeral but a NaN has a place among the rational numbers, with an infinity
at either end: a decimal that of its value, a finite float that of its shortest
digits.  Floats are compared by their parts and all other pairs as decimals, yet
every comparison is that of the places.  So all kinds of numerals together are in
a total order, up to an equality of their own.
-/

namespace FormulaEngine

section Compare

variable {Item : Type} [LinearOrder Item] {first second : Item}

theorem some_lt_eq_compare (before : first < second) :
    some Ordering.lt = some (compare first second) :=
  congrArg some (compare_lt_iff_lt.mpr before).symm

theorem some_gt_eq_compare (after : second < first) :
    some Ordering.gt = some (compare first second) :=
  congrArg some (compare_gt_iff_gt.mpr after).symm

theorem some_eq_eq_compare (item : Item) : some Ordering.eq = some (compare item item) :=
  congrArg some (compare_eq_iff_eq.mpr rfl).symm

end Compare

/-- The rational numbers with an infinity at either end. -/
abbrev Place : Type :=
  WithBot (WithTop ℚ)

theorem bot_lt_rational (x : ℚ) : (⊥ : Place) < ((x : WithTop ℚ) : Place) :=
  WithBot.bot_lt_coe _

theorem rational_lt_top (x : ℚ) : ((x : WithTop ℚ) : Place) < ⊤ :=
  WithBot.coe_lt_coe.mpr (WithTop.coe_lt_top x)

/-- Compare two places if there are any. -/
def comparePlaces? : Option Place → Option Place → Option Ordering
  | some first, some second => some (compare first second)
  | _, _ => none

theorem comparePlaces?_swap (first second : Option Place) :
    comparePlaces? second first = (comparePlaces? first second).map Ordering.swap := by
  cases first <;> cases second
  case some.some first second => exact congrArg some Std.OrientedOrd.eq_swap
  all_goals rfl

theorem comparePlaces?_coe (x y : ℚ) :
    comparePlaces? (some ((x : WithTop ℚ) : Place)) (some ((y : WithTop ℚ) : Place)) =
      some (compare x y) := by
  refine congrArg some (compare_congr ?_ ?_) <;>
    rw [WithBot.coe_lt_coe, WithTop.coe_lt_coe]

namespace Binary64

open Float.Model (UnpackedFloat)

/-- The place of a float in the order; that of a finite one is given by its
shortest digits. -/
def Parts.place? : Parts → Option Place
  | .nan => none
  | .infinite negative => some (if negative then ⊥ else ⊤)
  | .finite negative mantissa exponent =>
      some ((signedValue negative mantissa exponent : WithTop ℚ) : Place)

section Places

variable {left right : UnpackedFloat}

theorem infinity_compare_eq (sign : UnpackedFloat.Sign) (right : UnpackedFloat) :
    (UnpackedFloat.infinity sign).compare right =
      comparePlaces? (Parts.ofUnpacked (.infinity sign)).place?
        (Parts.ofUnpacked right).place? := by
  cases right with
  | notANumber => rfl
  | infinity other =>
      cases sign <;> cases other
      case negative.positive => exact some_lt_eq_compare bot_lt_top
      case positive.negative => exact some_gt_eq_compare bot_lt_top
      all_goals exact some_eq_eq_compare _
  | zero | finite =>
      cases sign
      case negative => exact some_lt_eq_compare (bot_lt_rational _)
      case positive => exact some_gt_eq_compare (rational_lt_top _)

/-- An unpacked float that is finite has a mantissa and an exponent of floats. -/
def HasMagnitude : UnpackedFloat → Prop
  | .finite _ mantissa exponent _ => IsMagnitude mantissa exponent
  | _ => True

/-- Floats of the standard model are compared by their places. -/
theorem unpacked_compare_eq (leftLegal : HasMagnitude left)
    (rightLegal : HasMagnitude right) :
    left.compare right =
      comparePlaces? (Parts.ofUnpacked left).place? (Parts.ofUnpacked right).place? := by
  have withInfinity (finite : UnpackedFloat) (sign : UnpackedFloat.Sign) :
      finite.compare (.infinity sign) =
        comparePlaces? (Parts.ofUnpacked finite).place?
          (Parts.ofUnpacked (.infinity sign)).place? := by
    rw [unpacked_compare_swap (.infinity sign), infinity_compare_eq,
      ← comparePlaces?_swap]
  cases left with
  | notANumber => rfl
  | infinity sign => exact infinity_compare_eq sign right
  | zero sign =>
      cases right with
      | notANumber => rfl
      | infinity other => exact withInfinity _ other
      | zero other =>
          refine Eq.trans ?_ (comparePlaces?_coe _ _).symm
          rw [signedValue_zero, signedValue_zero]
          exact some_eq_eq_compare _
      | finite other mantissa exponent positive =>
          obtain ⟨above, below⟩ := signedValue_pos rightLegal positive
          refine Eq.trans ?_ (comparePlaces?_coe _ _).symm
          rw [signedValue_zero]
          cases other
          case negative => exact some_gt_eq_compare below
          case positive => exact some_lt_eq_compare above
  | finite sign mantissa exponent positive =>
      cases right with
      | notANumber => rfl
      | infinity other => exact withInfinity _ other
      | zero other =>
          obtain ⟨above, below⟩ := signedValue_pos leftLegal positive
          refine Eq.trans ?_ (comparePlaces?_coe _ _).symm
          rw [signedValue_zero]
          cases sign
          case negative => exact some_lt_eq_compare below
          case positive => exact some_gt_eq_compare above
      | finite other otherMantissa otherExponent otherPositive =>
          refine Eq.trans ?_ (comparePlaces?_coe _ _).symm
          rw [compare_signedValue leftLegal rightLegal positive otherPositive]
          cases sign <;> cases other <;> rfl

end Places

theorem hasMagnitude_unpack (value : Float) : HasMagnitude value.toModel.unpack := by
  have isParts := parts_eq value
  cases unpacked : value.toModel.unpack with
  | finite sign mantissa exponent positive =>
      rw [unpacked] at isParts
      exact isMagnitude_of_parts isParts
  | _ => trivial

/-- Floats are compared by their places. -/
theorem compare?_eq_comparePlaces? (left right : Float) :
    compare? left right = comparePlaces? (parts left).place? (parts right).place? := by
  rw [compare?_eq, unpacked_compare_eq (hasMagnitude_unpack left)
    (hasMagnitude_unpack right), ← parts_eq, ← parts_eq]

end Binary64

namespace Numeral

/-- The place of a numeral in the order; a NaN has none. -/
def place? : Numeral → Option Place
  | floating value => (Binary64.parts value).place?
  | decimal value => some ((value.toRat : WithTop ℚ) : Place)

/-- A numeral is the float that is no number. -/
def IsNaN : Numeral → Prop
  | floating value => Binary64.parts value = .nan
  | decimal _ => False

theorem place?_eq_none_iff {numeral : Numeral} : numeral.place? = none ↔ numeral.IsNaN := by
  cases numeral with
  | floating value =>
      cases isParts : Binary64.parts value <;>
        simp [place?, IsNaN, isParts, Binary64.Parts.place?]
  | decimal value => simp [place?, IsNaN]

/-- A finite float has the place of the decimal that it becomes. -/
theorem place?_of_ofFloat? {value : Float} {decimal : Decimal}
    (becomes : Decimal.ofFloat? value = some decimal) :
    (floating value).place? = (Numeral.decimal decimal).place? := by
  rw [place?, place?]
  cases isParts : Binary64.parts value with
  | nan | infinite => simp [Decimal.ofFloat?, isParts] at becomes
  | finite negative mantissa exponent =>
      obtain ⟨shortest, isShortest, isValue⟩ := Decimal.ofFloat?_eq isParts
      obtain rfl : shortest = decimal := Option.some.inj (isShortest.symm.trans becomes)
      rw [isValue]
      rfl

theorem compareFloatToDecimal?_eq (float : Float) (decimal : Decimal) :
    compareFloatToDecimal? float decimal =
      comparePlaces? (place? (.floating float)) (place? (.decimal decimal)) := by
  cases isParts : Binary64.parts float with
  | nan =>
      rw [compareFloatToDecimal?, place?, isParts]
      rfl
  | infinite negative =>
      rw [compareFloatToDecimal?, place?, isParts]
      cases negative
      case false => exact some_gt_eq_compare (rational_lt_top _)
      case true => exact some_lt_eq_compare (bot_lt_rational _)
  | finite negative mantissa exponent =>
      obtain ⟨shortest, becomes, -⟩ := Decimal.ofFloat?_eq isParts
      rw [compareFloatToDecimal?, isParts, becomes, place?_of_ofFloat? becomes]
      refine Eq.trans ?_ (comparePlaces?_coe _ _).symm
      exact congrArg some (shortest.order_eq decimal)

/-- Numerals of all kinds are compared by their places. -/
theorem compare?_eq_comparePlaces? (left right : Numeral) :
    left.compare? right = comparePlaces? left.place? right.place? := by
  cases left <;> cases right
  case floating.floating left right => exact Binary64.compare?_eq_comparePlaces? left right
  case floating.decimal left right => exact compareFloatToDecimal?_eq left right
  case decimal.floating left right =>
    rw [compare?, compareFloatToDecimal?_eq, ← comparePlaces?_swap]
  case decimal.decimal left right =>
    refine Eq.trans ?_ (comparePlaces?_coe _ _).symm
    exact congrArg some (left.order_eq right)

end Numeral

/-! ### The laws of the order -/

/-- One item comes before another one or is level with it. -/
def AtMost {Item : Type} (compare? : Item → Item → Option Ordering)
    (left right : Item) : Prop :=
  ∃ order, compare? left right = some order ∧ order ≠ .gt

/-- A comparison leaves some items out and is a total preorder of all others, whose
equality is tested for. -/
structure ComparesTotally {Item : Type} (leftOut : Item → Prop)
    (compare? : Item → Item → Option Ordering) (isEqual : Item → Item → Bool) :
    Prop where
  unordered : ∀ {left right},
    compare? left right = none ↔ leftOut left ∨ leftOut right
  converse : ∀ left right,
    compare? right left = (compare? left right).map Ordering.swap
  total : ∀ {left right}, ¬ leftOut left → ¬ leftOut right →
    AtMost compare? left right ∨ AtMost compare? right left
  transitive : ∀ {first second third}, AtMost compare? first second →
    AtMost compare? second third → AtMost compare? first third
  antisymmetric : ∀ {left right}, AtMost compare? left right →
    AtMost compare? right left → isEqual left right = true
  isEqual_iff : ∀ {left right},
    isEqual left right = true ↔ compare? left right = some .eq
  equivalence : Equivalence fun left right : {item : Item // ¬ leftOut item} =>
    isEqual left right = true
  congruent : ∀ {first second third fourth}, isEqual first second = true →
    isEqual third fourth = true → compare? first third = compare? second fourth

namespace Numeral

variable {left right : Numeral}

theorem atMost_iff : AtMost compare? left right ↔
    ∃ first second, left.place? = some first ∧ right.place? = some second ∧
      first ≤ second := by
  unfold AtMost
  rw [compare?_eq_comparePlaces?]
  constructor
  · rintro ⟨order, isOrder, notGreater⟩
    cases isLeft : left.place? with
    | none => simp [comparePlaces?, isLeft] at isOrder
    | some first =>
      cases isRight : right.place? with
      | none => simp [comparePlaces?, isRight] at isOrder
      | some second =>
        rw [isLeft, isRight] at isOrder
        refine ⟨first, second, rfl, rfl, not_lt.mp fun greater => notGreater ?_⟩
        rw [← Option.some.inj isOrder]
        exact compare_gt_iff_gt.mpr greater
  · rintro ⟨first, second, isLeft, isRight, atMost⟩
    rw [isLeft, isRight]
    exact ⟨_, rfl, fun greater => atMost.not_gt (compare_gt_iff_gt.mp greater)⟩

theorem isEqual_iff : left.isEqual right = true ↔
    ∃ place, left.place? = some place ∧ right.place? = some place := by
  rw [isEqual, compare?_eq_comparePlaces?, beq_iff_eq]
  cases isLeft : left.place? with
  | none => simp [comparePlaces?]
  | some first =>
    cases isRight : right.place? with
    | none => simp [comparePlaces?]
    | some second =>
      rw [comparePlaces?, Option.some.injEq, compare_eq_iff_eq]
      constructor
      · rintro rfl
        exact ⟨first, rfl, rfl⟩
      · rintro ⟨place, isFirst, isSecond⟩
        exact Option.some.inj (isFirst.trans isSecond.symm)

/-- Numerals of all kinds, infinities included, are in a total order up to equality
of their values, and only a NaN compares to nothing. -/
theorem comparesTotally : ComparesTotally IsNaN compare? isEqual where
  unordered := by
    intro left right
    rw [compare?_eq_comparePlaces?, ← place?_eq_none_iff, ← place?_eq_none_iff]
    cases left.place? <;> cases right.place? <;> simp [comparePlaces?]
  converse := compare?_swap
  total := by
    intro left right leftNumber rightNumber
    rw [← place?_eq_none_iff, ← ne_eq, Option.ne_none_iff_exists'] at leftNumber rightNumber
    obtain ⟨first, isLeft⟩ := leftNumber
    obtain ⟨second, isRight⟩ := rightNumber
    rw [atMost_iff, atMost_iff]
    rcases le_total first second with atMost | atLeast
    · exact .inl ⟨first, second, isLeft, isRight, atMost⟩
    · exact .inr ⟨second, first, isRight, isLeft, atLeast⟩
  transitive := by
    intro first second third before after
    obtain ⟨low, middle, isLow, isMiddle, atMost⟩ := atMost_iff.mp before
    obtain ⟨same, high, isSame, isHigh, further⟩ := atMost_iff.mp after
    obtain rfl : middle = same := Option.some.inj (isMiddle.symm.trans isSame)
    exact atMost_iff.mpr ⟨low, high, isLow, isHigh, atMost.trans further⟩
  antisymmetric := by
    intro left right before after
    obtain ⟨first, second, isLeft, isRight, atMost⟩ := atMost_iff.mp before
    obtain ⟨other, another, isOther, isAnother, atLeast⟩ := atMost_iff.mp after
    obtain rfl : second = other := Option.some.inj (isRight.symm.trans isOther)
    obtain rfl : first = another := Option.some.inj (isLeft.symm.trans isAnother)
    exact isEqual_iff.mpr ⟨first, isLeft, atMost.antisymm atLeast ▸ isRight⟩
  isEqual_iff := beq_iff_eq
  equivalence := by
    refine ⟨fun ⟨numeral, isNumber⟩ => ?_, fun same => ?_, fun same further => ?_⟩
    · rw [← place?_eq_none_iff, ← ne_eq, Option.ne_none_iff_exists'] at isNumber
      obtain ⟨place, isPlace⟩ := isNumber
      exact isEqual_iff.mpr ⟨place, isPlace, isPlace⟩
    · rwa [isEqual_comm]
    · obtain ⟨place, isFirst, isSecond⟩ := isEqual_iff.mp same
      obtain ⟨other, isOther, isThird⟩ := isEqual_iff.mp further
      obtain rfl : place = other := Option.some.inj (isSecond.symm.trans isOther)
      exact isEqual_iff.mpr ⟨place, isFirst, isThird⟩
  congruent := by
    intro first second third fourth same otherSame
    obtain ⟨place, isFirst, isSecond⟩ := isEqual_iff.mp same
    obtain ⟨other, isThird, isFourth⟩ := isEqual_iff.mp otherSame
    rw [compare?_eq_comparePlaces?, compare?_eq_comparePlaces?, isFirst, isSecond,
      isThird, isFourth]

end Numeral

end FormulaEngine
