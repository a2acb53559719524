import FormulaEngine.Number.Reduction
import FormulaEngine.Proofs.Attempt
import FormulaEngine.Proofs.Decimal.Division
import FormulaEngine.Proofs.Decimal.RoundingError

/-!
# Digits within the budget

Rounding leaves an integer of at most so many digits, moved by a power of ten,
even where it carries to the next power.  Whatever operator acts on two decimals,
and along whatever path a power is found, a result has been rounded to the
context last, so it keeps within its budget.  Wrapping such a result as a decimal
numeral does not touch it.
-/

namespace FormulaEngine

theorem fitsDigits_roundSignificant {digits : ℕ} (limited : digits ≠ 0)
    (mode : RoundingMode) (x : ℚ) :
    FitsDigits digits (roundSignificant digits mode x) := by
  by_cases isZero : x = 0
  · rw [roundSignificant, if_pos (.inr isZero), isZero]
    exact fitsDigits_zero digits
  have unitPos := lastUnit_pos digits x
  -- The number is below the next power of ten, which rounding does not pass.
  have powerFits : FitsDigits digits (10 ^ digits * lastUnit digits x) := by
    rw [lastUnit, ← zpow_natCast, ← zpow_add₀ (by norm_num)]
    exact (fitsDigits_ten_zpow _).of_single limited
  have short : |roundSignificant digits mode x| ≤ 10 ^ digits * lastUnit digits x :=
    abs_roundSignificant_le (fun _ => powerFits) (abs_lt_mul_lastUnit digits x).le
  rw [roundSignificant, if_neg (by simp [limited, isZero])] at short ⊢
  rw [abs_mul, abs_of_pos unitPos] at short
  have few := le_of_mul_le_mul_right short unitPos
  exact fitsDigits_of_abs_le limited (by exact_mod_cast few) _

namespace Decimal

/-- The number of digits of a decimal without its trailing zeros. -/
def significantDigits (value : Decimal) : ℕ :=
  value.stripped.digitCount

theorem significantDigits_le_iff {value : Decimal} {digits : ℕ} (limited : digits ≠ 0) :
    value.significantDigits ≤ digits ↔ FitsDigits digits value.toRat := by
  constructor
  · intro few
    have fits : FitsDigits digits value.stripped.toRat := fitsDigits_toRat few
    rwa [stripped, fitsDigits_toRat_store, value.toRat_strippedExact] at fits
  · intro fits
    refine (Text.digitCount_le_iff (Nat.pos_of_ne_zero limited)).mpr ?_
    by_cases isZero : value.coefficient = 0
    · rw [stripped, strippedExact, if_pos (by simp [Decimal.isZero, isZero])]
      exact Nat.pow_pos (by norm_num)
    rw [← value.toRat_strippedExact] at fits
    have few := abs_lt_of_fits (not_ten_dvd_strippedExact isZero) fits
    rw [Int.abs_eq_natAbs] at few
    exact_mod_cast few

end Decimal

section Budget

variable {context : MathContext}

theorem MathContext.significantDigits_round (limited : context.isUnlimited = false)
    (value : Decimal) :
    (context.round value).significantDigits ≤ context.precision.toNat := by
  have budget := precision_ne_zero limited
  rw [Decimal.significantDigits_le_iff budget, round, Decimal.roundTo,
    fitsDigits_toRat_store, Decimal.toRat_roundExact]
  exact fitsDigits_roundSignificant budget context.rounding value.toRat

/-- Every way out of a power rounds to the context. -/
theorem Decimal.power_eq_round {base exponent power : Decimal}
    (limited : context.isUnlimited = false)
    (succeeds : base.power exponent context = .ok power) :
    ∃ exact, power = context.round exact := by
  unfold Decimal.power at succeeds
  split at succeeds
  next fractional =>
    obtain ⟨value, -, isPower⟩ := Attempt.of_bind succeeds
    refine ⟨value, ?_⟩
    rw [← MathContext.roundInexact_eq_round limited]
    exact (Except.ok.inj isPower).symm
  next integral =>
    dsimp only at succeeds
    split_ifs at succeeds with negative isZero
    · refine ⟨one.divide (base.naturalPower exponent.truncate.natAbs context), ?_⟩
      rw [← MathContext.roundInexact_eq_round limited]
      exact (Except.ok.inj succeeds).symm
    · exact ⟨_, (Except.ok.inj succeeds).symm⟩

namespace ArithmeticOp

variable {op : ArithmeticOp} {result : Operand}

/-- Every operator on decimals, other than bit operations, rounds its result to the
context. -/
theorem onDecimals_eq_round {left right : Decimal}
    (limited : context.isUnlimited = false) (arithmetic : op.isBitwise = false)
    (succeeds : op.onDecimals left right context = .ok result) :
    ∃ exact, result = .bigDecimal (context.round exact) := by
  cases op with
  | add | subtract | multiply => exact ⟨_, (Except.ok.inj succeeds).symm⟩
  | divide =>
      unfold onDecimals at succeeds
      split_ifs at succeeds with isZero
      · cases succeeds
      · refine ⟨left.divide right, ?_⟩
        rw [← MathContext.roundInexact_eq_round limited]
        exact (Except.ok.inj succeeds).symm
  | modulo =>
      unfold onDecimals at succeeds
      split_ifs at succeeds with isZero
      · cases succeeds
      · exact ⟨_, (Except.ok.inj succeeds).symm⟩
  | power =>
      obtain ⟨power, isPower, rfl⟩ := Attempt.of_map succeeds
      obtain ⟨exact, rfl⟩ := Decimal.power_eq_round limited isPower
      exact ⟨exact, rfl⟩
  | and | or | xor => cases arithmetic

theorem reduce_of_bigDecimal {left right : Operand}
    (meets : left.representation.common right.representation = .bigDecimal)
    (succeeds : op.reduce left right context = .ok result) :
    ∃ leftDecimal rightDecimal, left.toDecimal = .ok leftDecimal ∧
      right.toDecimal = .ok rightDecimal ∧
      op.onDecimals leftDecimal rightDecimal context = .ok result := by
  obtain ⟨pair, meet, reduces⟩ := Attempt.of_bind succeeds
  rw [OperandPair.meet, meets] at meet
  obtain ⟨leftDecimal, isLeft, meet⟩ := Attempt.of_bind meet
  obtain ⟨rightDecimal, isRight, meet⟩ := Attempt.of_bind meet
  cases Except.ok.inj meet
  exact ⟨leftDecimal, rightDecimal, isLeft, isRight, reduces⟩

/-- Where operands meet as decimals, a result is a decimal within the budget of
significant digits, and a decimal numeral keeps it as it is. -/
theorem reduce_within_budget {left right : Operand}
    (meets : left.representation.common right.representation = .bigDecimal)
    (limited : context.isUnlimited = false) (arithmetic : op.isBitwise = false)
    (succeeds : op.reduce left right context = .ok result) :
    ∃ value, result = .bigDecimal value ∧
      value.significantDigits ≤ context.precision.toNat ∧
      op.apply left right .arbitraryPrecision context = .ok (.decimal value) := by
  obtain ⟨leftDecimal, rightDecimal, -, -, onDecimals⟩ :=
    reduce_of_bigDecimal meets succeeds
  obtain ⟨exact, rfl⟩ := onDecimals_eq_round limited arithmetic onDecimals
  refine ⟨context.round exact, rfl, MathContext.significantDigits_round limited exact, ?_⟩
  rw [apply, succeeds]
  rfl

/-- Three to the power of minus two, in seven digits. -/
theorem reduce_within_budget_ninth :
    let three : Operand := .integer 3
    let exponent : Operand := .bigDecimal ⟨-2, 0⟩
    let context := MathContext.decimal32
    let ninth : Decimal := ⟨1111111, 7⟩
    three.representation.common exponent.representation = .bigDecimal ∧
      context.isUnlimited = false ∧ power.isBitwise = false ∧
      power.reduce three exponent context = .ok (.bigDecimal ninth) ∧
      ninth.significantDigits ≤ context.precision.toNat ∧
      power.apply three exponent .arbitraryPrecision context = .ok (.decimal ninth) := by
  intro three exponent context ninth
  have meets : three.representation.common exponent.representation = .bigDecimal := rfl
  have limited : context.isUnlimited = false := rfl
  have arithmetic : power.isBitwise = false := rfl
  have reduces : power.reduce three exponent context = .ok (.bigDecimal ninth) := by
    decide +kernel
  obtain ⟨value, isNinth, within, applies⟩ :=
    reduce_within_budget meets limited arithmetic reduces
  cases isNinth
  exact ⟨meets, limited, arithmetic, reduces, within, applies⟩

end ArithmeticOp

end Budget

end FormulaEngine
