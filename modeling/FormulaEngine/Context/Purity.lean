import FormulaEngine.Context.Basic
import FormulaEngine.Expression.Visitor

/-!
# Purity

Whether calls of a name are free of side effects is judged from declarations: a
host says it of its own functions, and a lambda is pure when every function that
its body calls is.  The question follows the calls between registered lambdas,
which may run in a circle, so it is answered within a number of steps.
-/

namespace FormulaEngine

variable {Label : Type}

/-- The names of all functions called in an expression, in the order in which a
walk from the root meets them. -/
def Forest.calledNames (forest : Forest) (expression : Expression) :
    List FunctionName :=
  let visitor : Visitor (List FunctionName) :=
    { react := fun event _ names =>
        match event with
        | .startCall function => (.continue, function :: names)
        | _ => (.continue, names) }
  (visitor.walk forest expression []).reverse

/-- Test a list until the first failure; a test may remain undecided. -/
def allWithin {Item : Type} (test : Item → Option Bool) :
    List Item → Option Bool
  | [] => some true
  | item :: items =>
      match test item with
      | some true => allWithin test items
      | answer => answer

/-- Judge a function, given a judgement of the names that it calls. -/
def Callable.isPureBy (forest : Forest)
    (judge : FunctionName → Option Bool) (callable : Callable Label) :
    Option Bool :=
  match callable.core with
  | .lambda _ body => allWithin judge (forest.calledNames body)
  | .host declaration _ => some declaration.isPure
  | _ => some true

namespace Context

/-- The function whose purity answers for a name, with the context in which it
is judged: a registered function, or one bound in a scope.  Function values in
the table of references do not count. -/
def judged? : Context Label → FunctionName →
    Option (Callable Label × Context Label)
  | basic tables, name =>
      (tables.functions.find? name).map (·, basic tables)
  | hosted _ tables, name =>
      (tables.functions.find? name).map (·, basic tables)
  | scope parent bindings, name =>
      match bindings.find? name.toReference with
      | some (.function _ callable) => some (callable, scope parent bindings)
      | _ => judged? parent name

/-- Judge within a number of steps whether calls of a name are pure. -/
def isPure (forest : Forest) :
    (steps : Nat) → Context Label → FunctionName → Option Bool
  | 0, _, _ => none
  | steps + 1, context, name =>
      match context.judged? name with
      | some (callable, home) =>
          callable.isPureBy forest (isPure forest steps home)
      | none => some false

end Context

/-- Judge within a number of steps whether a function is pure in a context. -/
def Callable.isPure (forest : Forest) (steps : Nat) (context : Context Label)
    (callable : Callable Label) : Option Bool :=
  callable.isPureBy forest (context.isPure forest steps)

end FormulaEngine
