import FormulaEngine.Binary64.Basic
import Mathlib.Data.Int.Basic

/-!
# Floats and their parts

Taking a float apart by its bits agrees with unpacking it in the standard model of
floats, where the zeros stand apart.  The mantissa of a finite float has at most
fifty-three bits, and it has all of them unless the exponent is the least one.
-/

namespace FormulaEngine

namespace Binary64

open Float.Model (UnpackedFloat)
open Float.Model.UnpackedFloat (Sign unpackMantissa unpackExponent unpackSign)

/-- The mantissas and exponents of finite floats. -/
structure IsMagnitude (mantissa : ℕ) (exponent : ℤ) : Prop where
  short : mantissa < 2 * leadingBit
  full : leadingBit ≤ mantissa ∨ exponent = -1074
  atLeast : -1074 ≤ exponent
  atMost : exponent ≤ 971

def isNegative : Sign → Bool
  | .positive => false
  | .negative => true

/-- The parts of a float of the standard model. -/
def Parts.ofUnpacked : UnpackedFloat → Parts
  | .notANumber => .nan
  | .infinity sign => .infinite (isNegative sign)
  | .zero sign => .finite (isNegative sign) 0 (-1074)
  | .finite sign mantissa exponent _ => .finite (isNegative sign) mantissa exponent

namespace Parts

@[simp]
theorem ofUnpacked_notANumber : ofUnpacked .notANumber = .nan := rfl

@[simp]
theorem ofUnpacked_infinity (sign : Sign) :
    ofUnpacked (.infinity sign) = .infinite (isNegative sign) := rfl

@[simp]
theorem ofUnpacked_zero (sign : Sign) :
    ofUnpacked (.zero sign) = .finite (isNegative sign) 0 (-1074) := rfl

@[simp]
theorem ofUnpacked_finite (sign : Sign) (mantissa : ℕ) (exponent : ℤ)
    (isPos : 0 < mantissa) :
    ofUnpacked (.finite sign mantissa exponent isPos) =
      .finite (isNegative sign) mantissa exponent := rfl

end Parts

section Bits

variable (bits : BitVec 64)

theorem toNat_unpackMantissa :
    (@unpackMantissa .binary64 bits).toNat = bits.toNat % leadingBit := by
  simp [unpackMantissa, leadingBit]

theorem toNat_unpackExponent :
    (@unpackExponent .binary64 bits).toNat = bits.toNat / leadingBit % 2048 := by
  simp [unpackExponent, leadingBit, Nat.shiftRight_eq_div_pow]

theorem isNegative_unpackSign :
    isNegative (.ofBitVec (@unpackSign .binary64 bits)) =
      decide (0x8000000000000000 ≤ bits.toNat) := by
  have sign : (@unpackSign .binary64 bits).toNat = bits.toNat / 2 ^ 63 % 2 := by
    change (bits.extractLsb 63 63).toNat = _
    simp [Nat.shiftRight_eq_div_pow]
  have short := bits.isLt
  unfold Sign.ofBitVec
  split
  next positive =>
    rw [positive] at sign
    exact (decide_eq_false (by simp at sign; omega)).symm
  next negative =>
    rw [← BitVec.toNat_inj, sign] at negative
    exact (decide_eq_true (by simp at negative; omega)).symm

end Bits

/-- Taking a float apart agrees with unpacking it. -/
theorem parts_eq (value : Float) : parts value = .ofUnpacked value.toModel.unpack := by
  let bits : BitVec 64 := value.toBits.toBitVec
  change parts value = .ofUnpacked (UnpackedFloat.unpack .binary64 bits)
  have exponent := toNat_unpackExponent bits
  have mantissa := toNat_unpackMantissa bits
  have special : @unpackExponent .binary64 bits = -1#11 ↔
      bits.toNat / leadingBit % 2048 = 2047 := by
    rw [← exponent]
    exact BitVec.toNat_inj.symm
  have least : @unpackExponent .binary64 bits = 0#11 ↔
      bits.toNat / leadingBit % 2048 = 0 := by
    rw [← exponent]
    exact BitVec.toNat_inj.symm
  have noFraction : @unpackMantissa .binary64 bits = 0#52 ↔
      bits.toNat % leadingBit = 0 := by
    rw [← mantissa]
    exact BitVec.toNat_inj.symm
  have sign := isNegative_unpackSign bits
  unfold parts UnpackedFloat.unpack
  dsimp only
  have isBits : value.toBits.toNat = bits.toNat := rfl
  rw [isBits]
  by_cases isSpecial : bits.toNat / leadingBit % 2048 = 2047
  · rw [if_pos isSpecial, if_pos (special.mpr isSpecial)]
    by_cases isWhole : bits.toNat % leadingBit = 0
    · rw [if_pos isWhole, if_pos (noFraction.mpr isWhole), Parts.ofUnpacked_infinity, sign]
    · rw [if_neg isWhole, if_neg (mt noFraction.mp isWhole), Parts.ofUnpacked_notANumber]
  rw [if_neg isSpecial, if_neg (mt special.mp isSpecial)]
  by_cases isLeast : bits.toNat / leadingBit % 2048 = 0
  · rw [if_pos isLeast, if_pos (least.mpr isLeast)]
    by_cases isWhole : bits.toNat % leadingBit = 0
    · rw [dif_pos (noFraction.mpr isWhole), Parts.ofUnpacked_zero, sign, isWhole]
    · rw [dif_neg (mt noFraction.mp isWhole), Parts.ofUnpacked_finite, sign, mantissa,
        exponent, isLeast]
      rfl
  · have leading : (1#1 ++ @unpackMantissa .binary64 bits).toNat =
        leadingBit + bits.toNat % leadingBit := by
      rw [BitVec.toNat_append, ← Nat.shiftLeft_add_eq_or_of_lt (BitVec.isLt _),
        Nat.shiftLeft_eq, mantissa]
      rfl
    rw [if_neg isLeast, if_neg (mt least.mp isLeast), Parts.ofUnpacked_finite, sign,
      leading, exponent]
    rfl

/-- The finite floats have their mantissas and exponents from a certain range. -/
theorem isMagnitude_of_parts {value : Float} {negative : Bool} {mantissa : ℕ}
    {exponent : ℤ} (isFinite : parts value = .finite negative mantissa exponent) :
    IsMagnitude mantissa exponent := by
  unfold parts at isFinite
  have fraction := Nat.mod_lt value.toBits.toNat (show 0 < leadingBit by decide)
  dsimp only at isFinite
  split_ifs at isFinite with special zero
  · cases isFinite
    exact ⟨by omega, .inr rfl, by omega, by omega⟩
  · cases isFinite
    exact ⟨by omega, .inl (by omega), by omega, by omega⟩

end Binary64

end FormulaEngine
