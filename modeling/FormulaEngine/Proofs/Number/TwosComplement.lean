import FormulaEngine.Number.TwosComplement

/-!
# Words as integers in two's complement

An integer is determined by its bits.  The bits of a word, read as an integer,
are those of the word followed by its sign without end, so the bit operations on
words are those on integers.
-/

namespace FormulaEngine

namespace TwosComplement

/-- All bits from some position on are those of the sign. -/
theorem testBit_eq_sign (value : Int) :
    ∃ length, ∀ position, length ≤ position →
      testBit value position = decide (value < 0) := by
  cases value with
  | ofNat value =>
      refine ⟨value, fun position isPast => ?_⟩
      have : value < 2 ^ position :=
        Nat.lt_of_le_of_lt isPast Nat.lt_two_pow_self
      simp [testBit, Nat.testBit_lt_two_pow this]
  | negSucc value =>
      refine ⟨value, fun position isPast => ?_⟩
      have : value < 2 ^ position :=
        Nat.lt_of_le_of_lt isPast Nat.lt_two_pow_self
      simp [testBit, Nat.testBit_lt_two_pow this, Int.negSucc_lt_zero]

/-- Integers with the same bits are equal. -/
theorem eq_of_testBit_eq {left right : Int}
    (same : ∀ position, testBit left position = testBit right position) :
    left = right := by
  obtain ⟨leftLength, leftSign⟩ := testBit_eq_sign left
  obtain ⟨rightLength, rightSign⟩ := testBit_eq_sign right
  have signs : decide (left < 0) = decide (right < 0) := by
    rw [← leftSign (max leftLength rightLength) (Nat.le_max_left _ _),
      ← rightSign (max leftLength rightLength) (Nat.le_max_right _ _), same]
  cases left <;> cases right
  · exact congrArg _ (Nat.eq_of_testBit_eq same)
  · simp at signs
    omega
  · simp at signs
    omega
  · refine congrArg _ (Nat.eq_of_testBit_eq fun position => ?_)
    simpa [testBit] using same position

/-- The bits of a word go on with its sign. -/
theorem testBit_toInt {width : Nat} (word : BitVec width) (position : Nat) :
    testBit word.toInt position =
      if position < width then word.getLsbD position else word.msb := by
  cases sign : word.msb with
  | false =>
      have nonnegative : word.toInt = Int.ofNat word.toNat := by
        simp [BitVec.toInt_eq_msb_cond, sign]
      rw [nonnegative, testBit, BitVec.testBit_toNat]
      split
      · rfl
      · exact BitVec.getLsbD_of_ge _ _ (by omega)
  | true =>
      have negative : word.toInt = Int.negSucc (~~~word).toNat := by
        have := word.isLt
        rw [BitVec.toInt_eq_msb_cond, if_pos sign, BitVec.toNat_not]
        omega
      rw [negative, testBit, BitVec.testBit_toNat, BitVec.getLsbD_not]
      by_cases inWord : position < width <;> simp [inWord]

theorem toInt_and (left right : Int64) :
    (left &&& right).toInt = and left.toInt right.toInt :=
  eq_of_testBit_eq fun position => by
    simp only [testBit_and, Int64.toInt, Int64.toBitVec_and, testBit_toInt]
    split <;> simp

theorem toInt_or (left right : Int64) :
    (left ||| right).toInt = or left.toInt right.toInt :=
  eq_of_testBit_eq fun position => by
    simp only [testBit_or, Int64.toInt, Int64.toBitVec_or, testBit_toInt]
    split <;> simp

theorem toInt_xor (left right : Int64) :
    (left ^^^ right).toInt = xor left.toInt right.toInt :=
  eq_of_testBit_eq fun position => by
    simp only [testBit_xor, Int64.toInt, Int64.toBitVec_xor, testBit_toInt]
    split <;> simp

end TwosComplement

end FormulaEngine
