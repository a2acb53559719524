import FormulaEngine.Number.Reduction
import FormulaEngine.Proofs.Attempt
import FormulaEngine.Proofs.Number.TwosComplement
import Mathlib.Algebra.Ring.Int.Defs
import Mathlib.Algebra.Ring.Nat

/-!
# Integers of 64 bits and big integers

Every operator is defined twice for integers: on words of 64 bits and on
integers without bound.  The two definitions refuse the same operands.  Where
they do not, a power is one big integer for both, and any other result on words
is the unbounded one, wrapped to 64 bits.  The bits of a word are already those
of an integer, so bit operations have nothing to wrap; nor have remainders.
-/

namespace FormulaEngine

namespace ArithmeticOp

/-- A result on words beside the result on big integers, for operators other
than the power.  A lossless operator has nothing to wrap. -/
inductive Wraps (lossless : Prop) : (fixed big : Except NumberError Operand) → Prop
  | refused (error : NumberError) : Wraps lossless (.error error) (.error error)
  | wrapped {word : Int64} {value : Int}
      (congruent : word.toInt = value.bmod (2 ^ 64))
      (unchanged : lossless → word.toInt = value) :
      Wraps lossless (.ok (.integer word)) (.ok (.bigInteger value))

namespace Wraps

variable {lossless : Prop} {fixed big : Except NumberError Operand}

theorem of_word (word : Int64) :
    Wraps lossless (.ok (.integer word)) (.ok (.bigInteger word.toInt)) :=
  .wrapped (Int64.toInt_bmod word).symm fun _ => rfl

theorem error_iff (wraps : Wraps lossless fixed big) (error : NumberError) :
    fixed = .error error ↔ big = .error error := by
  cases wraps <;> simp

theorem of_ok {result : Operand} (wraps : Wraps lossless fixed big)
    (isResult : big = .ok result) :
    ∃ (word : Int64) (value : Int), result = .bigInteger value ∧
      fixed = .ok (.integer word) ∧ word.toInt = value.bmod (2 ^ 64) ∧
      (lossless → word.toInt = value) := by
  cases wraps with
  | refused error => cases isResult
  | wrapped congruent unchanged =>
      obtain rfl := Except.ok.inj isResult
      exact ⟨_, _, rfl, rfl, congruent, unchanged⟩

end Wraps

theorem toInt_eq_zero {word : Int64} : word.toInt = 0 ↔ word = 0 := by
  constructor
  · intro isZero
    exact Int64.toInt_inj.mp (isZero.trans Int64.toInt_zero.symm)
  · rintro rfl
    exact Int64.toInt_zero

/-- The definitions of an operator agree up to wrapping; for remainders and bit
operations they agree. -/
theorem wraps_onIntegers {op : ArithmeticOp} (left right : Int64)
    (context : MathContext) (notPower : op ≠ power) :
    Wraps (op.isBitwise = true ∨ op = modulo)
      (op.onIntegers left right context)
      (op.onBigIntegers left.toInt right.toInt context) := by
  cases op with
  | add => exact .wrapped (Int64.toInt_add left right) (absurd · (by decide))
  | subtract => exact .wrapped (Int64.toInt_sub left right) (absurd · (by decide))
  | multiply => exact .wrapped (Int64.toInt_mul left right) (absurd · (by decide))
  | divide =>
      -- The least word divided by minus one is the one quotient that wraps.
      simp only [onIntegers, onBigIntegers, toInt_eq_zero]
      split
      · exact .refused _
      · exact .wrapped (Int64.toInt_div left right) (absurd · (by decide))
  | modulo =>
      simp only [onIntegers, onBigIntegers, toInt_eq_zero]
      split
      · exact .refused _
      · rw [← Int64.toInt_mod]
        exact .of_word _
  | power => exact absurd rfl notPower
  | and =>
      rw [onIntegers, onBigIntegers, ← TwosComplement.toInt_and]
      exact .of_word _
  | or =>
      rw [onIntegers, onBigIntegers, ← TwosComplement.toInt_or]
      exact .of_word _
  | xor =>
      rw [onIntegers, onBigIntegers, ← TwosComplement.toInt_xor]
      exact .of_word _

/-- Words of 64 bits are refused where big integers of the same values are, for
the same reason.  All other results are big integers for the latter; for words a
power is the same big integer, and any other result is its remainder in 64 bits
with sign.  Remainders and bit operations lose nothing. -/
theorem reduce_integers_eq_wrapped (op : ArithmeticOp) (left right : Int64)
    (context : MathContext) :
    let fixed := op.reduce (.integer left) (.integer right) context
    let big :=
      op.reduce (.bigInteger left.toInt) (.bigInteger right.toInt) context
    (∀ error, fixed = .error error ↔ big = .error error) ∧
      ∀ result, big = .ok result → ∃ value : Int,
        result = .bigInteger value ∧
          (op = .power → fixed = .ok (.bigInteger value)) ∧
          (op ≠ .power → ∃ word : Int64, fixed = .ok (.integer word) ∧
            word.toInt = value.bmod (2 ^ 64) ∧
            (op.isBitwise = true ∨ op = .modulo → word.toInt = value)) := by
  intro fixed big
  by_cases isPower : op = power
  · subst isPower
    have same : fixed = big := rfl
    refine ⟨fun error => by rw [same], ?_⟩
    intro result isResult
    obtain ⟨value, -, rfl⟩ := Attempt.of_map isResult
    exact ⟨value, rfl, fun _ => isResult, fun notPower => absurd rfl notPower⟩
  · have wraps : Wraps (op.isBitwise = true ∨ op = modulo) fixed big :=
      wraps_onIntegers left right context isPower
    refine ⟨wraps.error_iff, ?_⟩
    intro result isResult
    obtain ⟨word, value, rfl, isWord, congruent, unchanged⟩ :=
      wraps.of_ok isResult
    exact ⟨value, rfl, fun power => absurd power isPower,
      fun _ => ⟨word, isWord, congruent, unchanged⟩⟩

/-- The least word divided by minus one is one past the greatest word, and wraps
to itself. -/
theorem reduce_integers_eq_wrapped_least :
    let quotient := divide.reduce (.bigInteger Int64.minValue.toInt)
      (.bigInteger (-1 : Int64).toInt) .decimal128
    quotient = .ok (.bigInteger (2 ^ 63)) ∧ divide ≠ power ∧
      ∃ word : Int64,
        divide.reduce (.integer Int64.minValue) (.integer (-1)) .decimal128 =
          .ok (.integer word) ∧ word.toInt = -2 ^ 63 := by
  intro quotient
  have isQuotient : quotient = .ok (.bigInteger (2 ^ 63)) := rfl
  have notPower : divide ≠ power := by decide
  obtain ⟨value, isValue, -, wrapped⟩ :=
    (reduce_integers_eq_wrapped divide Int64.minValue (-1) .decimal128).2 _
      isQuotient
  obtain rfl := Operand.bigInteger.inj isValue
  obtain ⟨word, isWord, congruent, -⟩ := wrapped notPower
  exact ⟨isQuotient, notPower, word, isWord, congruent⟩

end ArithmeticOp

end FormulaEngine
