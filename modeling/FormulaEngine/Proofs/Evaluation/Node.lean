import FormulaEngine.Evaluation.Machine
import FormulaEngine.Proofs.Evaluation.Argument
import FormulaEngine.Proofs.Expression.Correspondence

/-!
# What the evaluation of a node depends on

The evaluation of a node depends on the values of its children, on how the
context converts and judges them, and, for a call, on the function that is found
under the name.  What two evaluations make of a node agrees when these do.  The
simplest host code depends on nothing but the arguments that it is given.
-/

namespace FormulaEngine

variable {Label : Type}

theorem isScalar_literal {literal : Literal} {kind : NumberKind}
    {value : Value Label} (succeeds : literal.toValue kind = .ok value) :
    value.IsScalar := by
  cases literal with
  | bool literal => cases succeeds; trivial
  | text literal => cases succeeds; trivial
  | number literal =>
      obtain ⟨numeral, -, rfl⟩ := Attempt.of_map succeeds
      trivial

/-- The host whose code answers from its arguments alone. -/
def Host.answering
    (answer : List (Value Label) → Except EvalError (Value Label)) :
    Host Label where
  body _ _ _ arguments := .done (answer arguments)
  rearrange _ _ _ arguments := .give arguments
  keeps _ _ _ _ := .give true

namespace World

variable {stops : Run.Stops} {good fit : Value Label → Prop}
  {first second : World Label} {context other : Context Label}
  {machine otherMachine : Machine Label}

/-- The function under a name, if it takes a number of arguments. -/
def lookUp (context : Context Label) (name : FunctionName) (count : Nat) :
    Except EvalError (Callable Label) := do
  let callable ← context.function name
  callable.checkCount count
  return callable

theorem evaluateNode_call (world : World Label) (context : Context Label)
    (machine : Machine Label) (name : FunctionName)
    (arguments : List Expression) :
    world.evaluateNode context machine (.call name arguments) =
      (Run.ofExcept (lookUp context name arguments.length) >>= fun callable =>
        context.prepare world.forest machine callable arguments >>= fun values =>
          (machine.apply callable values).noted
            ("in call to `" ++ name.text ++ "`")) := by
  simp only [evaluateNode, lookUp, Run.ofExcept_bind, bind_assoc]
  rfl

theorem function_of_lookUp {name : FunctionName} {count : Nat}
    {callable : Callable Label}
    (found : lookUp context name count = .ok callable) :
    context.function name = .ok callable := by
  obtain ⟨registered, isRegistered, checked⟩ := Attempt.of_bind found
  obtain ⟨-, -, same⟩ := Attempt.of_bind checked
  cases same
  exact isRegistered

theorem evaluateNode_value_agrees (same : context.kind = other.kind)
    (scalar : ∀ value : Value Label, value.IsScalar → good value)
    (literal : Literal) :
    (first.evaluateNode context machine (.value literal)).Agrees stops good
      (second.evaluateNode other otherMachine (.value literal)) := by
  simp only [evaluateNode, same]
  exact Run.agrees_ofNumeric rfl fun value succeeds =>
    scalar value (isScalar_literal succeeds)

theorem evaluateNode_reference_agrees {name : Reference}
    (resolve : ResolveAlike good context other name)
    (stored : ∀ expression, good (.expression expression) →
      (machine.evaluate expression).Agrees stops good
        (otherMachine.evaluate expression)) :
    (first.evaluateNode context machine (.reference name)).Agrees stops good
      (second.evaluateNode other otherMachine (.reference name)) := by
  refine (Run.agrees_ofExcept resolve.same resolve.isGood).bind
    fun value isGood => ?_
  cases value with
  | expression expression => exact stored expression isGood
  | _ => exact Run.agrees_pure isGood

section Operators

variable {left right image otherRight : Expression}

theorem evaluateNode_unary_agrees
    (alike : OperateAlike stops good first.forest context machine
      second.forest other otherMachine)
    (scalar : ∀ value : Value Label, value.IsScalar → good value)
    (op : UnaryOp) (below : (machine.evaluate left).Agrees stops good
      (otherMachine.evaluate image)) :
    (first.evaluateNode context machine (.unary op left)).Agrees stops good
      (second.evaluateNode other otherMachine (.unary op image)) :=
  below.bind fun _ isGood => (alike.unary op isGood).imp scalar

theorem evaluateNode_binary_agrees
    (alike : OperateAlike stops good first.forest context machine
      second.forest other otherMachine)
    (scalar : ∀ value : Value Label, value.IsScalar → good value)
    (op : BinaryOp) (leftBelow : (machine.evaluate left).Agrees stops good
      (otherMachine.evaluate image))
    (rightBelow : (machine.evaluate right).Agrees stops good
      (otherMachine.evaluate otherRight)) :
    (first.evaluateNode context machine (.binary op left right)).Agrees stops
      good
      (second.evaluateNode other otherMachine
        (.binary op image otherRight)) :=
  leftBelow.bind fun _ isLeft => rightBelow.bind fun _ isRight =>
    (alike.binary op isLeft isRight).imp scalar

end Operators

/-- Calls agree if they find the same function, prepare the same arguments, and
the function does the same with them. -/
theorem evaluateNode_call_agrees {name : FunctionName}
    {arguments others : List Expression}
    (same : context.function name = other.function name)
    (count : arguments.length = others.length)
    (prepared : ∀ callable, context.function name = .ok callable →
      (context.prepare first.forest machine callable arguments).Agrees stops
        (fun values => ∀ value ∈ values, fit value)
        (other.prepare second.forest otherMachine callable others))
    (applied : ∀ callable values, context.function name = .ok callable →
      (∀ value ∈ values, fit value) →
        (machine.apply callable values).Agrees stops good
          (otherMachine.apply callable values)) :
    (first.evaluateNode context machine (.call name arguments)).Agrees stops
      good (second.evaluateNode other otherMachine (.call name others)) := by
  rw [evaluateNode_call, evaluateNode_call, ← count]
  have sameFunction : lookUp context name arguments.length =
      lookUp other name arguments.length := by
    simp only [lookUp, same]
  refine (Run.agrees_ofExcept sameFunction fun callable =>
    function_of_lookUp).bind fun callable found => ?_
  refine (prepared callable found).bind fun values areFit => ?_
  exact (applied callable values found areFit).noted _

/-- Filters agree when they do argument by argument. -/
theorem keepArguments_agrees {test following : Value Label → Run Label Bool}
    (tests : ∀ value, good value →
      (test value).Agrees stops (fun _ => True) (following value))
    {arguments : List (Value Label)} (areGood : ∀ argument ∈ arguments, good argument) :
    (keepArguments test arguments).Agrees stops
      (fun values => ∀ value ∈ values, good value)
      (keepArguments following arguments) := by
  induction arguments with
  | nil => exact Run.agrees_pure (by simp)
  | cons argument rest ih =>
      rw [List.forall_mem_cons] at areGood
      refine (tests argument areGood.1).bind fun kept _ => ?_
      refine (ih areGood.2).bind fun values valuesGood => ?_
      refine Run.agrees_pure ?_
      cases kept with
      | true => exact List.forall_mem_cons.mpr ⟨areGood.1, valuesGood⟩
      | false => exact valuesGood

end World

end FormulaEngine
