import FormulaEngine.Number.MathContext
import FormulaEngine.Proofs.Decimal.Value

/-!
# Rounding as a function of the value

A rounding mode takes a rational number to one of the two integers around it.
Rounding to significant digits is the same in units of the last digit that is
kept, and the unit is found from the position of the leading digit.  Digits of a
decimal that are dropped thus depend on the value of the decimal alone; zeros at
its end neither count nor matter.  Dropping digits lowers the scale, so a rounded
decimal has the rounded value if its scale still fits.
-/

namespace FormulaEngine

theorem ceil_sub_half_le_floor_add_half (x : ℚ) :
    ⌈x - 1 / 2⌉ ≤ ⌊x + 1 / 2⌋ := by
  have := Int.lt_floor_add_one (x + 1 / 2)
  exact Int.ceil_le.mpr (by linarith)

theorem floor_add_half_le_ceil_sub_half (x : ℚ) :
    ⌊x + 1 / 2⌋ ≤ ⌈x - 1 / 2⌉ + 1 := by
  have upper := Int.floor_le (x + 1 / 2)
  have lower := Int.le_ceil (x - 1 / 2)
  have : (⌊x + 1 / 2⌋ : ℚ) ≤ ⌈x - 1 / 2⌉ + 1 := by linarith
  exact_mod_cast this

namespace RoundingMode

/-- Round a rational number to an integer.  The nearest integers from below and
from above differ only halfway between two integers. -/
def toInt (mode : RoundingMode) (x : ℚ) : ℤ :=
  match mode with
  | up => if x < 0 then ⌊x⌋ else ⌈x⌉
  | down => truncated x
  | ceiling => ⌈x⌉
  | floor => ⌊x⌋
  | halfUp => if x < 0 then ⌈x - 1 / 2⌉ else ⌊x + 1 / 2⌋
  | halfDown => if x < 0 then ⌊x + 1 / 2⌋ else ⌈x - 1 / 2⌉
  | halfEven => if 2 ∣ ⌈x - 1 / 2⌉ then ⌈x - 1 / 2⌉ else ⌊x + 1 / 2⌋

/-- The mode that does to the negated numbers what a mode does. -/
def mirrored : RoundingMode → RoundingMode
  | ceiling => floor
  | floor => ceiling
  | mode => mode

theorem toInt_neg (mode : RoundingMode) (x : ℚ) :
    mode.toInt (-x) = -mode.mirrored.toInt x := by
  have ceilNeg : ⌈-x - 1 / 2⌉ = -⌊x + 1 / 2⌋ := by
    rw [← Int.ceil_neg]
    congr 1
    ring
  have floorNeg : ⌊-x + 1 / 2⌋ = -⌈x - 1 / 2⌉ := by
    rw [← Int.floor_neg]
    congr 1
    ring
  have near := ceil_sub_half_le_floor_add_half x
  have far := floor_add_half_le_ceil_sub_half x
  -- Zero is nonnegative on both sides of the mirror, all else on one of them.
  rcases eq_or_ne x 0 with rfl | nonzero
  · cases mode <;> norm_num [toInt, mirrored, truncated]
  have flipped : -x < 0 ↔ ¬ x < 0 := by
    rw [neg_lt_zero, not_lt]
    exact ⟨le_of_lt, fun nonnegative => nonnegative.lt_of_ne' nonzero⟩
  cases mode with
  | ceiling => exact Int.ceil_neg
  | floor => exact Int.floor_neg
  | down => exact truncated_neg x
  | halfEven =>
      simp only [toInt, mirrored, ceilNeg, floorNeg]
      split_ifs <;> omega
  | _ =>
      simp only [toInt, mirrored, flipped, ite_not, ceilNeg, floorNeg,
        Int.ceil_neg, Int.floor_neg]
      split_ifs <;> rfl

/-- An integer is not rounded. -/
theorem toInt_intCast (mode : RoundingMode) (value : ℤ) :
    mode.toInt value = value := by
  have below : ⌈(value : ℚ) - 1 / 2⌉ = value := by
    rw [Int.ceil_eq_iff]
    constructor <;> linarith
  have above : ⌊(value : ℚ) + 1 / 2⌋ = value := by
    rw [Int.floor_eq_iff]
    constructor <;> linarith
  cases mode <;>
    simp only [toInt, truncated_intCast, below, above, Int.floor_intCast,
      Int.ceil_intCast, ite_self]

section Lost

variable {lost : ℚ}

theorem floor_add_half_of_lost (lostPos : 0 < lost) (lostLess : lost < 1) :
    ⌊lost + 1 / 2⌋ = if 1 / 2 ≤ lost then 1 else 0 := by
  rw [Int.floor_eq_iff]
  split_ifs <;> push_cast <;> constructor <;> linarith

theorem ceil_sub_half_of_lost (lostPos : 0 < lost) (lostLess : lost < 1) :
    ⌈lost - 1 / 2⌉ = if 1 / 2 < lost then 1 else 0 := by
  rw [Int.ceil_eq_iff]
  split_ifs <;> push_cast <;> constructor <;> linarith

end Lost

/-- Where something is lost, a nonnegative number goes up or down as the mode
decides from what is lost. -/
theorem toInt_natCast_add (mode : RoundingMode) (kept : ℕ) {rest unit : ℕ}
    (restPos : 0 < rest) (restLess : rest < unit) :
    mode.toInt (kept + (rest : ℚ) / unit) =
      if mode.goesUp false kept rest unit = true then (kept : ℤ) + 1
      else kept := by
  have unitPos : (0 : ℚ) < unit := by exact_mod_cast restPos.trans restLess
  have reachesHalf : (1 : ℚ) / 2 ≤ rest / unit ↔ unit ≤ 2 * rest := by
    rw [div_le_div_iff₀ two_pos unitPos, one_mul, mul_comm]
    exact_mod_cast Iff.rfl
  have passesHalf : (1 : ℚ) / 2 < rest / unit ↔ unit < 2 * rest := by
    rw [div_lt_div_iff₀ two_pos unitPos, one_mul, mul_comm]
    exact_mod_cast Iff.rfl
  have lostPos : (0 : ℚ) < rest / unit :=
    div_pos (by exact_mod_cast restPos) unitPos
  have lostLess : (rest : ℚ) / unit < 1 :=
    (div_lt_one unitPos).mpr (by exact_mod_cast restLess)
  generalize (rest : ℚ) / unit = lost at *
  have nonnegative : ¬ (kept : ℚ) + lost < 0 := not_lt.mpr (by positivity)
  have floorLost : ⌊lost⌋ = 0 := by
    rw [Int.floor_eq_zero_iff]
    exact ⟨lostPos.le, lostLess⟩
  have ceilLost : ⌈lost⌉ = 1 := by
    rw [Int.ceil_eq_iff]
    constructor <;> norm_num <;> linarith
  have nearestBelow : ⌈(kept : ℚ) + lost - 1 / 2⌉ =
      kept + if unit < 2 * rest then 1 else 0 := by
    rw [add_sub_assoc, Int.ceil_natCast_add,
      ceil_sub_half_of_lost lostPos lostLess]
    simp only [passesHalf]
  have nearestAbove : ⌊(kept : ℚ) + lost + 1 / 2⌋ =
      kept + if unit ≤ 2 * rest then 1 else 0 := by
    rw [add_assoc, Int.floor_natCast_add,
      floor_add_half_of_lost lostPos lostLess]
    simp only [reachesHalf]
  cases mode with
  | up => simp [toInt, goesUp, nonnegative, ceilLost]
  | down => simp [toInt, goesUp, truncated, nonnegative, floorLost]
  | ceiling => simp [toInt, goesUp, ceilLost]
  | floor => simp [toInt, goesUp, floorLost]
  | halfUp =>
      simp only [toInt, goesUp, nonnegative, nearestAbove, if_false,
        decide_eq_true_eq]
      split_ifs <;> omega
  | halfDown =>
      simp only [toInt, goesUp, nonnegative, nearestBelow, if_false,
        decide_eq_true_eq]
      split_ifs <;> omega
  | halfEven =>
      simp only [toInt, goesUp, nearestBelow, nearestAbove, Bool.or_eq_true,
        Bool.and_eq_true, decide_eq_true_eq, beq_iff_eq]
      split_ifs <;> omega

theorem quotient_eq_toInt (mode : RoundingMode) (magnitude : ℕ) {unit : ℕ}
    (unitPos : 0 < unit) :
    (mode.quotient false magnitude unit : ℤ) =
      mode.toInt ((magnitude : ℚ) / unit) := by
  have unitNonzero : (unit : ℚ) ≠ 0 := by exact_mod_cast unitPos.ne'
  have parts : (magnitude : ℚ) / unit =
      (magnitude / unit : ℕ) + ((magnitude % unit : ℕ) : ℚ) / unit := by
    rw [div_eq_iff unitNonzero, add_mul, div_mul_cancel₀ _ unitNonzero, mul_comm]
    exact_mod_cast (Nat.div_add_mod magnitude unit).symm
  rw [quotient, parts]
  by_cases exact : magnitude % unit = 0
  · rw [if_neg (fun lost => lost.1 exact), exact, Nat.cast_zero, zero_div,
      add_zero]
    exact_mod_cast (mode.toInt_intCast (magnitude / unit : ℕ)).symm
  · rw [toInt_natCast_add mode _ (Nat.pos_of_ne_zero exact)
      (Nat.mod_lt magnitude unitPos)]
    simp [exact]

/-- A negative magnitude is rounded by the mirrored mode. -/
theorem quotient_negative (mode : RoundingMode) (magnitude unit : ℕ) :
    mode.quotient true magnitude unit =
      mode.mirrored.quotient false magnitude unit := by
  cases mode <;> rfl

/-- Rounding of a magnitude and its sign is rounding of the signed number. -/
theorem signed_quotient (mode : RoundingMode) (coefficient : ℤ) {unit : ℕ}
    (unitPos : 0 < unit) :
    (let negative := decide (coefficient < 0)
     let magnitude := mode.quotient negative coefficient.natAbs unit
     if negative then -(magnitude : ℤ) else magnitude) =
      mode.toInt ((coefficient : ℚ) / unit) := by
  by_cases negative : coefficient < 0
  · have signed : (coefficient : ℚ) / unit =
        -((coefficient.natAbs : ℚ) / unit) := by
      rw [← neg_div, Nat.cast_natAbs, abs_of_neg negative]
      push_cast
      ring
    simp only [negative, decide_true, if_true]
    rw [signed, toInt_neg, quotient_negative, quotient_eq_toInt _ _ unitPos]
  · have signed : (coefficient : ℚ) / unit = (coefficient.natAbs : ℚ) / unit := by
      rw [Nat.cast_natAbs, abs_of_nonneg (not_lt.mp negative)]
    simp only [negative, decide_false, Bool.false_eq_true, if_false]
    rw [signed, quotient_eq_toInt _ _ unitPos]

end RoundingMode

/-- The unit of the last of the significant digits that a rational number
keeps. -/
def lastUnit (digits : ℕ) (x : ℚ) : ℚ :=
  10 ^ (Int.log 10 |x| + 1 - digits)

/-- Round a rational number to significant digits.  No digits at all mean that
nothing is rounded. -/
def roundSignificant (digits : ℕ) (mode : RoundingMode) (x : ℚ) : ℚ :=
  if digits = 0 ∨ x = 0 then x
  else mode.toInt (x / lastUnit digits x) * lastUnit digits x

namespace Decimal

theorem lastUnit_toRat {value : Decimal} (nonzero : value.coefficient ≠ 0)
    (digits : ℕ) :
    lastUnit digits value.toRat =
      10 ^ ((value.digitCount : ℤ) - digits - value.scale) := by
  rw [lastUnit, log_abs_toRat nonzero]
  congr 1
  ring

theorem roundExact_of_few {value : Decimal} {digits : ℕ} {mode : RoundingMode}
    (few : digits ≠ 0 → value.digitCount ≤ digits) :
    value.roundExact digits mode = value.exact :=
  if_pos (or_iff_not_imp_left.mpr few)

/-- A decimal of few digits is left as it is. -/
theorem roundTo_of_few {value : Decimal} {digits : ℕ} {mode : RoundingMode}
    (few : digits ≠ 0 → value.digitCount ≤ digits) :
    value.roundTo digits mode = value := by
  rw [roundTo, roundExact_of_few few, store_exact]

/-- Rounding a decimal rounds its value. -/
theorem toRat_roundExact (value : Decimal) (digits : ℕ) (mode : RoundingMode) :
    (value.roundExact digits mode).toRat =
      roundSignificant digits mode value.toRat := by
  unfold roundSignificant
  by_cases unlimited : digits = 0
  · simp [roundExact, unlimited, toRat_exact]
  by_cases isZero : value.toRat = 0
  · have few : value.digitCount ≤ digits := by
      have : value.digitCount = 1 := by
        rw [digitCount, toRat_eq_zero.mp isZero]
        rfl
      omega
    simp [roundExact, few, isZero, toRat_exact]
  rw [if_neg (by simp [unlimited, isZero]),
    lastUnit_toRat (mt toRat_eq_zero.mpr isZero)]
  by_cases few : value.digitCount ≤ digits
  · -- The last digit that is kept stands behind the last one there is.
    obtain ⟨places, isPlaces⟩ := Nat.exists_eq_add_of_le few
    have whole : value.toRat /
        10 ^ ((value.digitCount : ℤ) - digits - value.scale) =
          ((value.coefficient * 10 ^ places : ℤ) : ℚ) := by
      rw [div_eq_iff (ten_zpow_pos _).ne', toRat, isPlaces]
      push_cast
      rw [mul_assoc, ← zpow_natCast, ← zpow_add₀ (by norm_num)]
      congr 2
      ring
    rw [whole, RoundingMode.toInt_intCast, ← whole,
      div_mul_cancel₀ _ (ten_zpow_pos _).ne', roundExact, if_pos (.inr few),
      toRat_exact]
  · obtain ⟨dropped, isDropped⟩ := Nat.exists_eq_add_of_le (not_le.mp few).le
    have lost : value.toRat /
        10 ^ ((value.digitCount : ℤ) - digits - value.scale) =
          (value.coefficient : ℚ) / ((10 ^ dropped : ℕ) : ℚ) := by
      rw [div_eq_div_iff (ten_zpow_pos _).ne' (by positivity), toRat, isDropped]
      push_cast
      rw [mul_assoc, ← zpow_natCast, ← zpow_add₀ (by norm_num)]
      congr 2
      ring
    rw [lost, ← RoundingMode.signed_quotient mode _ (by positivity), roundExact,
      if_neg (by simp [unlimited, few])]
    simp only [ExactDecimal.toRat, isDropped, Nat.add_sub_cancel_left]
    congr 2
    push_cast
    ring

theorem toRat_roundTo {value : Decimal} {digits : ℕ} {mode : RoundingMode}
    (fits : (value.roundExact digits mode).Fits) :
    (value.roundTo digits mode).toRat =
      roundSignificant digits mode value.toRat := by
  rw [roundTo, ExactDecimal.toRat_store fits, toRat_roundExact]

end Decimal

/-- Round a rational number as a math context rounds decimals. -/
def MathContext.roundRat (context : MathContext) (x : ℚ) : ℚ :=
  roundSignificant context.precision.toNat context.rounding x

/-- A decimal rounded to a math context, before its scale is stored. -/
def MathContext.roundExact (context : MathContext) (value : Decimal) :
    ExactDecimal :=
  value.roundExact context.precision.toNat context.rounding

theorem MathContext.toRat_round {context : MathContext} {value : Decimal}
    (fits : (context.roundExact value).Fits) :
    (context.round value).toRat = context.roundRat value.toRat :=
  Decimal.toRat_roundTo fits

end FormulaEngine
