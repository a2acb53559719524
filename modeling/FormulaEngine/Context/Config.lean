import FormulaEngine.Evaluation.Error
import FormulaEngine.Number.Inspection
import FormulaEngine.Text.Blank

/-!
# Numeric settings

A context evaluates numbers of one kind under one math context.  Both settings
can be read from named texts, such as the variables of an environment.
-/

namespace FormulaEngine

/-- The numeric settings of a context. -/
structure ContextConfig where
  kind : NumberKind := .floating
  math : MathContext := .decimal128
  deriving DecidableEq, Repr, Inhabited

namespace ContextConfig

/-- The name of the text that chooses the kind of numbers. -/
def kindVariable : String :=
  "ARBOR_NUMBER_KIND"

/-- The name of the text that chooses the number of significant digits. -/
def precisionVariable : String :=
  "ARBOR_PRECISION"

/-- Read a number of significant digits, rounded half to even. -/
def readPrecision (text : String) : Except EvalError MathContext :=
  match Text.readUnsigned? (Text.trimChars text.toList) with
  | some digits =>
      if digits < UInt64.size then
        (MathContext.create (UInt64.ofNat digits) .halfEven).mapError
          NumberError.toEvalError
      else .error (.of (.invalidConfig precisionVariable text))
  | none => .error (.of (.invalidConfig precisionVariable text))

/-- Read the settings from named texts; what is not named keeps its default. -/
def read (lookup : String → Option String) : Except EvalError ContextConfig := do
  let kind ←
    match lookup kindVariable with
    | some text => (NumberKind.read text).mapError NumberError.toEvalError
    | none => pure .floating
  let math ←
    match lookup precisionVariable with
    | some text => readPrecision text
    | none => pure .decimal128
  return { kind, math }

def inspect (config : ContextConfig) : String :=
  Text.record "ContextConfig"
    [("number_kind", config.kind.inspect),
      ("math_context", config.math.inspect)]

end ContextConfig

end FormulaEngine
