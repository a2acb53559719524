/-!
# Numeric failures

What can go wrong while numbers are created, converted or combined, and how it
is reported.
-/

namespace FormulaEngine

/-- The cause of a numeric failure. -/
inductive NumberError
  /-- An integral or decimal division or remainder by zero, or zero raised to a
  negative power. -/
  | divisionByZero (operation : String)
  /-- A result that should have been integral has a fractional part. -/
  | inexactResult (operation value : String)
  /-- A value has no counterpart in the wanted representation. -/
  | notRepresentable (value target : String)
  /-- A digit budget that is not positive. -/
  | invalidPrecision (precision : UInt64)
  /-- A text that names no kind of number. -/
  | unknownKind (text : String)
  deriving DecidableEq, Repr

def NumberError.message : NumberError → String
  | .divisionByZero operation => "division by zero in " ++ operation
  | .inexactResult operation value =>
      operation ++ " produced a non-integral result: " ++ value
  | .notRepresentable value target =>
      value ++ " cannot be represented as " ++ target
  | .invalidPrecision precision =>
      "precision must be greater than zero, got " ++ precision.toNat.repr
  | .unknownKind text => "unknown number kind `" ++ text ++ "`"

end FormulaEngine
