import FormulaEngine.Expression.Edit
import FormulaEngine.Formula.Parameter
import FormulaEngine.Number.Error

/-!
# Evaluation errors

An evaluation error has a cause, a message and notes that the calls it passed
through have added, innermost first.  The engine's own errors have the wording of
their cause as their message; host code may give an error any other message.
Numeric failures and failed edits turn into errors of their own.
-/

namespace FormulaEngine

/-- The cause of an evaluation error. -/
inductive EvalCause
  /-- An argument count outside the bounds of a function. -/
  | arity (function : String) (got least : Nat) (most : Option Nat)
  /-- A name under which no function is found. -/
  | unknownFunction (name : String)
  /-- A list of parameters that no call can satisfy. -/
  | invalidParameters (function message : String)
  /-- An argument that does not convert to the type of its parameter. -/
  | parameterType (function parameter value : String) (target : ValueType)
  /-- A reference without a value. -/
  | unknownReference (reference : String)
  /-- A value that does not convert to a type. -/
  | conversion (value target : String)
  /-- A setting with an unusable value. -/
  | invalidConfig (key value : String)
  /-- A division by zero. -/
  | divisionByZero (operation : String)
  /-- A result that should have been integral. -/
  | inexactResult (operation value : String)
  /-- An operator without a rule for the types of its operands. -/
  | typeMismatch (operator left : String) (right : Option String)
  /-- A failed edit of a tree. -/
  | invalidTree (message : String)
  /-- A failure of host code. -/
  | custom (message : String)
  deriving DecidableEq, Repr

/-- The wording of a cause. -/
def EvalCause.message : EvalCause → String
  | arity function got least most =>
      let subject := if function = "" then "" else function ++ ": "
      if got < least then
        subject ++ "Missing parameters, got " ++ got.repr ++ " expected " ++
          least.repr
      else
        subject ++ "Too many parameters, got " ++ got.repr ++ " expected " ++
          (most.getD least).repr
  | unknownFunction name => "unknown function: " ++ name
  | invalidParameters function message => function ++ ": " ++ message
  | parameterType function parameter value target =>
      function ++ ": parameter " ++ parameter ++ " expected " ++ target.name ++
        ", got `" ++ value ++ "`"
  | unknownReference reference => "unknown reference: " ++ reference
  | conversion value target =>
      "cannot convert `" ++ value ++ "` to " ++ target
  | invalidConfig key value => "invalid value `" ++ value ++ "` for " ++ key
  | divisionByZero operation => "division by zero in " ++ operation
  | inexactResult operation value =>
      operation ++ " produced a non-integral result: " ++ value
  | typeMismatch operator left (some right) =>
      "operator `" ++ operator ++ "` cannot be applied to " ++ left ++
        " and " ++ right
  | typeMismatch operator left none =>
      "operator `" ++ operator ++ "` cannot be applied to " ++ left
  | invalidTree message => message
  | custom message => message

/-- An evaluation error: its cause, its message and the notes attached on its
way. -/
structure EvalError where
  cause : EvalCause
  message : String
  notes : List String := []
  deriving DecidableEq, Repr

namespace EvalError

/-- An error of a cause, with the wording of the cause and without notes. -/
def of (cause : EvalCause) : EvalError :=
  ⟨cause, cause.message, []⟩

/-- An error of host code. -/
def custom (message : String) : EvalError :=
  of (.custom message)

/-- Attach a note behind those attached already. -/
def withNote (error : EvalError) (note : String) : EvalError :=
  { error with notes := error.notes ++ [note] }

/-- Report an error: its message and its notes, each on a line of its own. -/
def report (error : EvalError) : String :=
  error.notes.foldl (fun text note => text ++ "\n  note: " ++ note)
    error.message

end EvalError

/-- The evaluation error of a numeric failure. -/
def NumberError.toEvalError : NumberError → EvalError
  | .divisionByZero operation => .of (.divisionByZero operation)
  | .inexactResult operation value => .of (.inexactResult operation value)
  | .notRepresentable value target => .of (.conversion value target)
  | .invalidPrecision precision =>
      .of (.invalidConfig "precision" precision.toNat.repr)
  | .unknownKind text => .of (.invalidConfig "number kind" text)

/-- The evaluation error of a failed edit. -/
def TreeError.toEvalError (error : TreeError) : EvalError :=
  .of (.invalidTree error.message)

end FormulaEngine
