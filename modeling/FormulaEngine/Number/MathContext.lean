import FormulaEngine.Decimal.Rounding
import FormulaEngine.Number.Error

/-!
# Digit budgets

A math context says how many significant digits a decimal result keeps and how
it is rounded.  The budget is a word of 64 bits; the unlimited context is the
one whose budget is zero.  Exact results are not rounded there, and results that
cannot be exact keep one hundred digits.
-/

namespace FormulaEngine

/-- A budget of significant digits, zero when unlimited, with a rounding mode. -/
structure MathContext where
  precision : UInt64
  rounding : RoundingMode
  deriving DecidableEq, Repr

namespace MathContext

/-- Seven digits. -/
def decimal32 : MathContext :=
  ⟨7, .halfEven⟩

/-- Sixteen digits. -/
def decimal64 : MathContext :=
  ⟨16, .halfEven⟩

/-- Thirty-four digits; the context in force where none is chosen. -/
def decimal128 : MathContext :=
  ⟨34, .halfEven⟩

/-- No rounding of exact results. -/
def unlimited : MathContext :=
  ⟨0, .halfUp⟩

/-- The fixed contexts by name. -/
def catalogue : List (String × MathContext) :=
  [("decimal32", decimal32), ("decimal64", decimal64),
    ("decimal128", decimal128), ("unlimited", unlimited)]

instance : Inhabited MathContext :=
  ⟨decimal128⟩

/-- The digits that inexact results keep in the unlimited context. -/
def unlimitedDigits : UInt64 :=
  100

/-- The extra digits that intermediate results carry. -/
def guardDigits : UInt64 :=
  4

/-- A context with a positive budget. -/
def create (precision : UInt64) (rounding : RoundingMode) :
    Except NumberError MathContext :=
  if precision = 0 then .error (.invalidPrecision precision)
  else .ok ⟨precision, rounding⟩

/-- Test whether exact results are left unrounded. -/
def isUnlimited (context : MathContext) : Bool :=
  context.precision == 0

/-- The budget of results that cannot be exact. -/
def digits (context : MathContext) : UInt64 :=
  if context.isUnlimited then unlimitedDigits else context.precision

/-- The context of intermediate results: the same mode with guard digits, summed
in the 64 bits of a budget. -/
def working (context : MathContext) : MathContext :=
  ⟨context.digits + guardDigits, context.rounding⟩

/-- Round an exact result. -/
def round (context : MathContext) (value : Decimal) : Decimal :=
  value.roundTo context.precision.toNat context.rounding

/-- Round a result that may be inexact. -/
def roundInexact (context : MathContext) (value : Decimal) : Decimal :=
  value.roundTo context.digits.toNat context.rounding

end MathContext

end FormulaEngine
