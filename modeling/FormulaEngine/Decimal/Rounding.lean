import FormulaEngine.Decimal.Basic

/-!
# Rounding to significant digits

A decimal with more digits than wanted loses its last digits; what is lost
decides, together with the rounding mode, whether the last kept digit goes up.
A decimal that has few enough digits is left as it is, without padding.
-/

namespace FormulaEngine

/-- What happens to a value between two neighbours.  `up` and `down` are away
from zero and toward zero; the half modes differ only halfway. -/
inductive RoundingMode
  | up
  | down
  | ceiling
  | floor
  | halfUp
  | halfDown
  | halfEven
  deriving DecidableEq, Repr

namespace RoundingMode

/-- The modes by name. -/
def catalogue : List (String × RoundingMode) :=
  [("up", up), ("down", down), ("ceiling", ceiling), ("floor", floor),
    ("half-up", halfUp), ("half-down", halfDown), ("half-even", halfEven)]

/-- Decide whether a kept magnitude goes up by one, when `rest` out of `unit` is
lost and `rest` is not zero. -/
def goesUp (mode : RoundingMode) (negative : Bool) (kept rest unit : Nat) :
    Bool :=
  match mode with
  | .up => true
  | .down => false
  | .ceiling => !negative
  | .floor => negative
  | .halfUp => decide (unit ≤ 2 * rest)
  | .halfDown => decide (unit < 2 * rest)
  | .halfEven =>
      decide (unit < 2 * rest) || (decide (2 * rest = unit) && kept % 2 == 1)

/-- Divide a magnitude by a unit and round the quotient to an integer. -/
def quotient (mode : RoundingMode) (negative : Bool) (magnitude unit : Nat) :
    Nat :=
  let kept := magnitude / unit
  let rest := magnitude % unit
  if rest ≠ 0 ∧ mode.goesUp negative kept rest unit = true then kept + 1
  else kept

end RoundingMode

namespace Decimal

/-- Round to at most `digits` significant digits; a carry may leave one more,
which is then zero.  No digits at all means that nothing is rounded. -/
def roundExact (value : Decimal) (digits : Nat) (mode : RoundingMode) :
    ExactDecimal :=
  if digits = 0 ∨ value.digitCount ≤ digits then value.exact
  else
    let dropped := value.digitCount - digits
    let negative := decide (value.coefficient < 0)
    let magnitude :=
      mode.quotient negative value.coefficient.natAbs (10 ^ dropped)
    ⟨if negative then -(magnitude : Int) else magnitude, value.scale - dropped⟩

/-- Round a decimal.  Rounding is only meant for decimals whose rounded scale fits
its word. -/
def roundTo (value : Decimal) (digits : Nat) (mode : RoundingMode) : Decimal :=
  (value.roundExact digits mode).store

end Decimal

end FormulaEngine
