import FormulaEngine.Context.Basic
import FormulaEngine.Evaluation.Run

/-!
# Scripts

What host code does is described by a script: it ends with a result, or it asks
the context to evaluate an expression, to judge the truth of a value or to apply
a function, and goes on with the answer.  A host gives a script to each of its
labels.
-/

namespace FormulaEngine

/-- What host code does. -/
inductive Script (Label Result : Type)
  | done (result : Except EvalError Result)
  | evaluate (expression : Expression)
      (next : Except EvalError (Value Label) → Script Label Result)
  | judge (value : Value Label)
      (next : Except EvalError Bool → Script Label Result)
  | apply (callable : Callable Label) (arguments : List (Value Label))
      (next : Except EvalError (Value Label) → Script Label Result)

variable {Label Result Next : Type}

namespace Script

/-- The script that ends with a result. -/
def give (result : Result) : Script Label Result :=
  done (.ok result)

/-- The script that fails with an error. -/
def fail (error : EvalError) : Script Label Result :=
  done (.error error)

/-- The script that fails with a message of the host. -/
def refuse (message : String) : Script Label Result :=
  fail (.custom message)

/-- Go on with the end of a script, be it a result or an error. -/
def resume (script : Script Label Result)
    (following : Except EvalError Result → Script Label Next) :
    Script Label Next :=
  match script with
  | done result => following result
  | evaluate expression next =>
      evaluate expression fun answer => (next answer).resume following
  | judge value next =>
      judge value fun answer => (next answer).resume following
  | apply callable arguments next =>
      apply callable arguments fun answer => (next answer).resume following

/-- Go on with the result of a script. -/
def bind (script : Script Label Result)
    (following : Result → Script Label Next) : Script Label Next :=
  script.resume fun result =>
    match result with
    | .ok result => following result
    | .error error => fail error

instance : Monad (Script Label) where
  pure := give
  bind := bind

/-- Ask for the value of an expression. -/
def valueOf (expression : Expression) : Script Label (Value Label) :=
  evaluate expression done

/-- Ask for the truth of a value. -/
def truthOf (value : Value Label) : Script Label Bool :=
  judge value done

/-- Ask for the result of a function. -/
def resultOf (callable : Callable Label) (arguments : List (Value Label)) :
    Script Label (Value Label) :=
  apply callable arguments done

end Script

/-- What the labels of host code mean, in the forest and the context of a call:
a body, a rearrangement of arguments, or a test of arguments. -/
structure Host (Label : Type) where
  body : Label → Forest → Context Label → List (Value Label) →
    Script Label (Value Label)
  rearrange : Label → Forest → Context Label → List (Value Label) →
    Script Label (List (Value Label))
  keeps : Label → Forest → Context Label → Value Label → Script Label Bool

/-- What evaluations read and never change. -/
structure World (Label : Type) where
  forest : Forest
  host : Host Label

/-- What a context does for the code that runs in it. -/
structure Machine (Label : Type) where
  evaluate : Expression → Run Label (Value Label)
  judge : Value Label → Run Label Bool
  apply : Callable Label → List (Value Label) → Run Label (Value Label)

/-- The machine whose steps are used up. -/
def Machine.stopped : Machine Label where
  evaluate _ := .cutOff
  judge _ := .cutOff
  apply _ _ := .cutOff

/-- Follow a script. -/
def Script.run (machine : Machine Label) :
    Script Label Result → Run Label Result
  | .done result => .ofExcept result
  | .evaluate expression next =>
      (machine.evaluate expression).resume fun answer =>
        (next answer).run machine
  | .judge value next =>
      (machine.judge value).resume fun answer => (next answer).run machine
  | .apply callable arguments next =>
      (machine.apply callable arguments).resume fun answer =>
        (next answer).run machine

end FormulaEngine
