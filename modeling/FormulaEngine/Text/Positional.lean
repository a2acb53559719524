/-!
# Positional notation

A value `coefficient · 10 ^ exponent` in positional notation: the digits of the
coefficient, followed by zeros for a positive exponent, with a point among them
or zeros in front of them for a negative one.
-/

namespace FormulaEngine

-- Powers of numbers are the ones that the core library computes, also where
-- algebraic structures offer others.
attribute [instance (2000)] instPowNat

namespace Text

/-- The number of decimal digits of a natural number; zero has one digit. -/
def digitCount (value : Nat) : Nat :=
  (Nat.toDigits 10 value).length

theorem digitCount_pos (value : Nat) : 0 < digitCount value :=
  Nat.length_toDigits_pos

theorem digitCount_le_iff {value count : Nat} (countPos : 0 < count) :
    digitCount value ≤ count ↔ value < 10 ^ count :=
  Nat.length_toDigits_le_iff (by omega) countPos

theorem lt_ten_pow_digitCount (value : Nat) :
    value < 10 ^ digitCount value :=
  (digitCount_le_iff (digitCount_pos value)).mp (Nat.le_refl _)

/-- Put a point in front of the last `places` digits, with zeros in front where
digits are missing. -/
def withPoint (digits : List Char) (places : Nat) : List Char :=
  if places = 0 then digits
  else if places < digits.length then
    digits.take (digits.length - places) ++
      '.' :: digits.drop (digits.length - places)
  else
    '0' :: '.' :: List.replicate (places - digits.length) '0' ++ digits

/-- Write `coefficient · 10 ^ exponent` in positional notation. -/
def positional (coefficient : Nat) (exponent : Int) : List Char :=
  let digits := Nat.toDigits 10 coefficient
  if 0 ≤ exponent then digits ++ List.replicate exponent.toNat '0'
  else withPoint digits (-exponent).toNat

end Text

end FormulaEngine
