import FormulaEngine.Decimal.Division
import FormulaEngine.Number.MathContext
import FormulaEngine.Number.Operand

/-!
# Powers

A decimal is raised to an integral power by squaring, with guard digits on every
product, and to a fractional power in floating arithmetic.  Integers have exact
powers for exponents of up to 32 bits; beyond them only zero, one and minus one
do.  A negative power of an integer must come out integral.
-/

namespace FormulaEngine

/-- The name under which powers report failures. -/
def powerLabel : String :=
  "power"

namespace Decimal

/-- Multiply `result` by `square` raised to `exponent`; `step` rounds each
product. -/
def squaring (step : Decimal → Decimal) (exponent : Nat)
    (result square : Decimal) : Decimal :=
  if exponent = 0 then result
  else
    let result :=
      if exponent % 2 = 1 then step (result.multiply square) else result
    let square :=
      if exponent / 2 = 0 then square else step (square.multiply square)
    squaring step (exponent / 2) result square
termination_by exponent

/-- Raise a decimal to a natural power; products are rounded with guard digits
unless the context is unlimited. -/
def naturalPower (base : Decimal) (exponent : Nat) (context : MathContext) :
    Decimal :=
  squaring (if context.isUnlimited then id else context.working.round)
    exponent one base

/-- Raise a decimal to a decimal power, rounded to the context. -/
def power (base exponent : Decimal) (context : MathContext) :
    Except NumberError Decimal :=
  if exponent.isIntegral = false then do
    let value ← Operand.decimalOfFloat (base.toFloat.pow exponent.toFloat)
    return context.roundInexact value
  else
    let count := exponent.truncate
    if count < 0 then
      if base.isZero then .error (.divisionByZero powerLabel)
      else
        .ok (context.roundInexact
          (one.divide (base.naturalPower count.natAbs context)))
    else .ok (context.round (base.naturalPower count.natAbs context))

/-- The integer that a decimal without fractional part stands for. -/
def exactInteger (value : Decimal) (operation : String) :
    Except NumberError Int :=
  if value.isIntegral then .ok value.truncate
  else .error (.inexactResult operation value.write)

end Decimal

/-- Raise an integer to an integer power. -/
def integerPower (base exponent : Int) (context : MathContext) :
    Except NumberError Int :=
  if exponent < 0 then do
    let value ← (Decimal.ofInt base).power (Decimal.ofInt exponent) context
    value.exactInteger powerLabel
  else if exponent < UInt32.size then .ok (base ^ exponent.toNat)
  else if base = 0 ∨ base = 1 then .ok base
  else if base = -1 then .ok (if exponent % 2 = 0 then 1 else -1)
  else
    .error (.notRepresentable
      (Text.writeInt base ++ " ** " ++ Text.writeInt exponent)
      Representation.bigInteger.name)

end FormulaEngine
