import FormulaEngine.Text.Positional

/-!
# Binary floating-point numbers taken apart

A float of 64 bits is a NaN, an infinity, or `± mantissa · 2 ^ exponent`.  The
exact operations of the engine (truncation, remainder, order, rounding of a
decimal value) are stated on these parts in integer arithmetic.
-/

namespace FormulaEngine

namespace Binary64

/-- The parts of a float. -/
inductive Parts
  | nan
  | infinite (negative : Bool)
  | finite (negative : Bool) (mantissa : Nat) (exponent : Int)
  deriving DecidableEq, Repr

/-- The weight of the leading bit of a normal mantissa, which is not stored. -/
def leadingBit : Nat :=
  0x10000000000000

/-- Take a float apart.  Zero has mantissa zero; a float below the normal range
has the least exponent and a mantissa without the leading bit. -/
def parts (value : Float) : Parts :=
  let bits := value.toBits.toNat
  let negative := decide (0x8000000000000000 ≤ bits)
  let biased : Nat := bits / leadingBit % 2048
  let fraction : Nat := bits % leadingBit
  if biased = 2047 then
    if fraction = 0 then .infinite negative else .nan
  else if biased = 0 then .finite negative fraction (-1074)
  else .finite negative (leadingBit + fraction) ((biased : Int) - 1075)

/-- Positive infinity. -/
def infinity : Float :=
  Float.ofBits 0x7ff0000000000000

/-- The value that is no number. -/
def nan : Float :=
  Float.ofBits 0x7ff8000000000000

/-- Negate a float where asked to. -/
def withSign (negative : Bool) (value : Float) : Float :=
  if negative then -value else value

/-- The float nearest to `coefficient · 10 ^ exponent`, ties to even.  A value
beyond the range becomes infinite, and one too small for it zero. -/
def ofScientific (coefficient : Nat) (exponent : Int) : Float :=
  let magnitude := (Text.digitCount coefficient : Int) + exponent
  if coefficient = 0 ∨ magnitude < -330 then 0.0
  else if 310 < magnitude then infinity
  else Float.ofScientific coefficient (decide (exponent < 0)) exponent.natAbs

/-- The float nearest to an integer. -/
def ofInt (value : Int) : Float :=
  withSign (decide (value < 0)) (ofScientific value.natAbs 0)

/-- The float nearest to `mantissa · 2 ^ exponent`. -/
def ofDyadic (mantissa : Nat) (exponent : Int) : Float :=
  if 0 ≤ exponent then ofScientific (mantissa * 2 ^ exponent.toNat) 0
  else ofScientific (mantissa * 5 ^ (-exponent).toNat) exponent

/-- The integer part of a finite float, truncated toward zero. -/
def truncate? (value : Float) : Option Int :=
  match parts value with
  | .finite negative mantissa exponent =>
      let magnitude :=
        if 0 ≤ exponent then mantissa * 2 ^ exponent.toNat
        else mantissa / 2 ^ (-exponent).toNat
      some (if negative then -(magnitude : Int) else magnitude)
  | _ => none

/-- Test whether a float is finite and has no fractional part. -/
def isIntegral (value : Float) : Bool :=
  match parts value with
  | .finite _ mantissa exponent =>
      decide (0 ≤ exponent) || mantissa % 2 ^ (-exponent).toNat == 0
  | _ => false

/-- The remainder of a truncated division, which has the sign of the dividend
and is exact.  An infinite dividend or a zero divisor leaves no number. -/
def remainder (left right : Float) : Float :=
  match parts left, parts right with
  | .finite negative mantissa exponent, .finite _ divisor divisorExponent =>
      if divisor = 0 then nan
      else
        let lowest := min exponent divisorExponent
        let rest := (mantissa * 2 ^ (exponent - lowest).toNat) %
          (divisor * 2 ^ (divisorExponent - lowest).toNat)
        withSign negative (ofDyadic rest lowest)
  | .finite .., .infinite _ => left
  | _, _ => nan

/-- Compare two floats; a NaN compares to nothing. -/
def compare? (left right : Float) : Option Ordering :=
  if left < right then some .lt
  else if right < left then some .gt
  else if left == right then some .eq
  else none

/-- Raise ten to a natural power by squaring, rounding every product. -/
def powerOfTen (exponent : Nat) : Float :=
  squaring exponent 10.0 1.0
where
  /-- Multiply `result` by `square ^ exponent`. -/
  squaring (exponent : Nat) (square result : Float) : Float :=
    if exponent = 0 then result
    else
      squaring (exponent / 2) (square * square)
        (if exponent % 2 = 1 then result * square else result)
  termination_by exponent

end Binary64

end FormulaEngine
