import FormulaEngine.Evaluation.Script
import FormulaEngine.Proofs.Evaluation.Operation

/-!
# Known expressions

An evaluation that starts from some expressions reaches others: the nodes below
them, the formulas stored in a context, the bodies of lambdas, and what host code
is given.  A set of known expressions bounds what is reached.  It bounds values
and functions by the expressions in them, and scripts by what they ask about.
Machines that agree on what is known answer such a script alike.
-/

namespace FormulaEngine

variable {Label Result : Type}

/-- The bodies of lambdas in a function are known. -/
def Callable.Within (known : Expression → Prop) : Callable Label → Prop
  | .constantFalse | .startsWith | .host _ _ => True
  | .lambda _ body => known body
  | .named _ inner => Within known inner
  | .mapped _ inner => Within known inner
  | .filtered _ inner => Within known inner

/-- The expressions in a value are known. -/
def Value.Within (known : Expression → Prop) : Value Label → Prop
  | .expression placed => known placed
  | .function _ callable => callable.Within known
  | _ => True

/-- A script asks about known expressions only, as long as the answers are, and
ends with a result of a property. -/
inductive Script.Within (known : Expression → Prop) (holds : Result → Prop) :
    Script Label Result → Prop
  | done {result : Except EvalError Result}
      (isHeld : ∀ value, result = .ok value → holds value) :
      Within known holds (.done result)
  | evaluate {expression : Expression}
      {next : Except EvalError (Value Label) → Script Label Result}
      (isKnown : known expression)
      (following : ∀ answer, (∀ value, answer = .ok value →
        value.Within known) → Within known holds (next answer)) :
      Within known holds (.evaluate expression next)
  | judge {value : Value Label}
      {next : Except EvalError Bool → Script Label Result}
      (isWithin : value.Within known)
      (following : ∀ answer, Within known holds (next answer)) :
      Within known holds (.judge value next)
  | apply {callable : Callable Label} {arguments : List (Value Label)}
      {next : Except EvalError (Value Label) → Script Label Result}
      (isWithin : callable.Within known)
      (areWithin : ∀ argument ∈ arguments, argument.Within known)
      (following : ∀ answer, (∀ value, answer = .ok value →
        value.Within known) → Within known holds (next answer)) :
      Within known holds (.apply callable arguments next)

/-- Two scripts are one and the same, and it keeps to what is known. -/
structure Script.AlikeWithin (known : Expression → Prop) (holds : Result → Prop)
    (first second : Script Label Result) : Prop where
  within : first.Within known holds
  same : second = first

section Known

variable {known : Expression → Prop}

theorem Value.IsScalar.within {value : Value Label} (scalar : value.IsScalar) :
    value.Within known := by
  cases value with
  | bool | text | number => trivial
  | _ => exact False.elim scalar

theorem Callable.within_of_all (all : ∀ expression, known expression) :
    ∀ callable : Callable Label, callable.Within known
  | .constantFalse | .startsWith | .host _ _ => trivial
  | .lambda _ body => all body
  | .named _ inner => within_of_all all inner
  | .mapped _ inner => within_of_all all inner
  | .filtered _ inner => within_of_all all inner

theorem Value.within_of_all (all : ∀ expression, known expression)
    (value : Value Label) : value.Within known := by
  cases value with
  | expression placed => exact all placed
  | function tag callable => exact Callable.within_of_all all callable
  | _ => trivial

theorem Script.within_of_all (all : ∀ expression, known expression)
    {holds : Result → Prop} (always : ∀ result, holds result)
    (script : Script Label Result) : script.Within known holds := by
  induction script with
  | done result => exact .done fun value _ => always value
  | evaluate expression next ih =>
      exact .evaluate (all expression) fun answer _ => ih answer
  | judge value next ih => exact .judge (value.within_of_all all) ih
  | apply callable arguments next ih =>
      exact .apply (callable.within_of_all all)
        (fun argument _ => argument.within_of_all all) fun answer _ => ih answer

end Known

/-! ### Machines -/

/-- Two machines agree on what is known. -/
structure Machine.Agree (stops : Run.Stops) (known : Expression → Prop)
    (first second : Machine Label) : Prop where
  evaluate : ∀ expression, known expression →
    (first.evaluate expression).Agrees stops (Value.Within known)
      (second.evaluate expression)
  judge : ∀ value, value.Within known →
    (first.judge value).Agrees stops (fun _ => True) (second.judge value)
  apply : ∀ callable arguments, callable.Within known →
    (∀ argument ∈ arguments, argument.Within known) →
      (first.apply callable arguments).Agrees stops (Value.Within known)
        (second.apply callable arguments)

/-- Machines that agree follow a script alike. -/
theorem Script.Within.run {stops : Run.Stops} {known : Expression → Prop}
    {holds : Result → Prop} {script : Script Label Result}
    {first second : Machine Label} (within : script.Within known holds)
    (agree : first.Agree stops known second) :
    (script.run first).Agrees stops holds (script.run second) := by
  induction within with
  | done isHeld => exact Run.agrees_ofExcept rfl isHeld
  | evaluate isKnown following ih =>
      exact (agree.evaluate _ isKnown).resume ih
  | judge isWithin following ih =>
      exact (agree.judge _ isWithin).resume fun answer _ => ih answer
  | apply isWithin areWithin following ih =>
      exact (agree.apply _ _ isWithin areWithin).resume ih

end FormulaEngine
