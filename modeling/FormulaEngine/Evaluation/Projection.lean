import FormulaEngine.Evaluation.Machine

/-!
# Typed results

The value of an expression can be asked for as a truth value, a number or a text,
by way of the converter of the context, and a bare reference can be asked for
itself.
-/

namespace FormulaEngine

variable {Label : Type}

namespace World

/-- Evaluate an expression and convert its value. -/
def project (world : World Label) (steps : Nat) (context : Context Label)
    (target : ValueType) (expression : Expression) :
    Run Label (Value Label) := do
  let value ← world.evaluate steps context expression
  .ofExcept (context.convert world.forest value target)

/-- The error of a converter that has answered with a value of another type. -/
def misconverted (world : World Label) (value : Value Label)
    (target : ValueType) : EvalError :=
  .of (.conversion (value.write world.forest) target.name)

/-- The value of an expression as a truth value. -/
def evaluateBool (world : World Label) (steps : Nat) (context : Context Label)
    (expression : Expression) : Run Label Bool := do
  match ← world.project steps context .bool expression with
  | .bool value => pure value
  | other => .fail (world.misconverted other .bool)

/-- The value of an expression as a number. -/
def evaluateNumber (world : World Label) (steps : Nat)
    (context : Context Label) (expression : Expression) :
    Run Label Numeral := do
  match ← world.project steps context .number expression with
  | .number value => pure value
  | other => .fail (world.misconverted other .number)

/-- The value of an expression as a text. -/
def evaluateText (world : World Label) (steps : Nat) (context : Context Label)
    (expression : Expression) : Run Label String := do
  match ← world.project steps context .text expression with
  | .text value => pure value
  | other => .fail (world.misconverted other .text)

/-- The value of an expression, or the reference itself where the expression is
a bare one and is not to be resolved. -/
def evaluateReference (world : World Label) (steps : Nat)
    (context : Context Label) (resolve : Bool) (expression : Expression) :
    Run Label (Value Label) :=
  match world.forest.referenceName? expression with
  | some name =>
      if resolve then world.evaluate steps context expression
      else pure (.reference name)
  | none => world.evaluate steps context expression

end World

end FormulaEngine
