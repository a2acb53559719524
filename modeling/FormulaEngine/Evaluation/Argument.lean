import FormulaEngine.Evaluation.Script

/-!
# Arguments

A call checks its argument count against the parameters of the function and then
prepares each argument for its parameter: a bare reference may be resolved or
passed on, an argument may be wanted unevaluated, all else is evaluated, and the
value is converted to the declared type.
-/

namespace FormulaEngine

variable {Label : Type}

/-- Check an argument count against the parameters of a function. -/
def Callable.checkCount (callable : Callable Label) (count : Nat) :
    Except EvalError Unit :=
  let name := (callable.name?.map FunctionName.text).getD ""
  match Arity.of callable.parameters with
  | .error misplaced =>
      .error (.of (.invalidParameters name misplaced.message))
  | .ok arity =>
      if arity.accepts count then .ok ()
      else .error (.of (.arity name count arity.least arity.most))

/-- Test whether a parameter of a type takes a reference as it is. -/
def ValueType.takesReference : ValueType → Bool
  | any | reference | expression => true
  | _ => false

namespace Context

/-- Convert the value of an argument to the type of its parameter.  A reference
is resolved first where the type does not take references, and a value that is
of the type already is not converted. -/
def convertArgument (context : Context Label) (forest : Forest)
    (function : String) (parameter : Parameter) (value : Value Label) :
    Except EvalError (Value Label) := do
  let value ←
    match value with
    | .reference name =>
        if parameter.type.takesReference then pure value
        else context.resolve name
    | _ => pure value
  if parameter.type = .any ∨ value.type = parameter.type then return value
  else
    (context.convert forest value parameter.type).mapError fun _ =>
      .of (.parameterType function parameter.name.text (value.write forest)
        parameter.type)

/-- Prepare an argument for a parameter. -/
def prepareArgument (context : Context Label) (forest : Forest)
    (machine : Machine Label) (function : String) (parameter : Parameter)
    (argument : Expression) : Run Label (Value Label) :=
  let finish := fun value =>
    Run.ofExcept
      (context.convertArgument forest function parameter value)
  match forest.referenceName? argument with
  | some name =>
      if parameter.flags.resolvesReferences then do
        finish (← .ofExcept (context.resolve name))
      else if parameter.flags.unevaluated then
        pure (.expression argument)
      else finish (.reference name)
  | none =>
      if parameter.flags.unevaluated then pure (.expression argument)
      else do finish (← machine.evaluate argument)

/-- Prepare the arguments of a function, left to right.  Reports name the
function below all new names; arguments without a parameter are evaluated. -/
def prepare (context : Context Label) (forest : Forest)
    (machine : Machine Label) (callable : Callable Label)
    (arguments : List Expression) : Run Label (List (Value Label)) :=
  Run.forEach
    (fun (index, argument) =>
      match parameterAt? callable.core.parameters index with
      | some parameter =>
          context.prepareArgument forest machine callable.core.displayName
            parameter argument
      | none => machine.evaluate argument)
    (arguments.mapIdx fun index argument => (index, argument))

end Context

end FormulaEngine
