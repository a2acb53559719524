import FormulaEngine.Evaluation.Argument
import FormulaEngine.Evaluation.Operation

/-!
# Evaluation

Evaluation handles one node at a time.  Children, stored formulas, the truth of
values and the bodies of functions are left to a machine with one step less, so
every question is answered within a number of steps or cut off.  Both operands
of an operator are evaluated, left first; a call looks its function up, checks
the argument count, prepares the arguments and applies the function, and only
an error of the application gets a note.
-/

namespace FormulaEngine

variable {Label : Type}

namespace World

/-- Evaluate a node, given the machine for all that it leads to. -/
def evaluateNode (world : World Label) (context : Context Label)
    (machine : Machine Label) : Node Expression → Run Label (Value Label)
  | .value literal => .ofNumeric (literal.toValue context.kind)
  | .reference name => do
      match ← Run.ofExcept (context.resolve name) with
      | .expression stored => machine.evaluate stored
      | value => pure value
  | .unary op operand => do
      context.unary machine op (← machine.evaluate operand)
  | .binary op left right => do
      let left ← machine.evaluate left
      let right ← machine.evaluate right
      context.binary world.forest machine op left right
  | .call name arguments => do
      let callable ← Run.ofExcept (context.function name)
      Run.ofExcept (callable.checkCount arguments.length)
      let values ← context.prepare world.forest machine callable arguments
      (machine.apply callable values).noted
        ("in call to `" ++ name.text ++ "`")
  | .lambda parameters body => pure (.function none (.lambda parameters body))

/-- Judge the truth of a value that needs no context: zero, the empty text and
`false` are false. -/
def plainTruth : Value Label → Bool
  | .bool value => value
  | .number value => !value.isZero
  | .integer value => value != 0
  | .bigInteger value => value != 0
  | .text value => value != ""
  | _ => true

/-- Judge the truth of a value by default: references are resolved, expressions
are evaluated, and what comes out is judged by the context again. -/
def judgeByDefault (context : Context Label) (machine : Machine Label) :
    Value Label → Run Label Bool
  | .reference name => do
      machine.judge (← .ofExcept (context.resolve name))
  | .expression expression => do
      machine.judge (← machine.evaluate expression)
  | value => pure (plainTruth value)

/-- Judge the truth of a value.  The rule of a basic context decides about every
value there, but in a scope references and expressions are judged by default,
since they must see the local bindings. -/
def judgeValue (world : World Label) (context : Context Label)
    (machine : Machine Label) (value : Value Label) : Run Label Bool :=
  match context, context.truthiness?, value with
  | .scope _ _, _, .reference _ => judgeByDefault context machine value
  | .scope _ _, _, .expression _ => judgeByDefault context machine value
  | _, some rule, _ => pure (rule world.forest value)
  | _, none, _ => judgeByDefault context machine value

/-- The text of an argument of the built-in test for a prefix. -/
def textArgument (world : World Label) (context : Context Label)
    (value : Value Label) : Except EvalError String :=
  match value with
  | .text text => .ok text
  | _ => (context.convert world.forest value .text).map (·.write world.forest)

/-- Test whether a text starts with another. -/
def startsWith (world : World Label) (context : Context Label) :
    List (Value Label) → Except EvalError (Value Label)
  | [text, initial] => do
      let text ← world.textArgument context text
      let initial ← world.textArgument context initial
      return .bool (initial.toList.isPrefixOf text.toList)
  | arguments => do
      (Callable.startsWith : Callable Label).checkCount arguments.length
      return .bool false

/-- Bind the parameters of a lambda to arguments, one to one from the left, over
the calling context. -/
def scopeOf (context : Context Label) (parameters : List Parameter)
    (arguments : List (Value Label)) : Context Label :=
  context.bind ((parameters.map (·.name.toReference)).zip arguments)

/-- Keep the arguments that a host keeps, left to right. -/
def keepArguments (test : Value Label → Run Label Bool) :
    List (Value Label) → Run Label (List (Value Label))
  | [] => pure []
  | value :: values => do
      let kept ← test value
      let rest ← keepArguments test values
      return if kept then value :: rest else rest

/-- Apply a function to arguments, given the machine of every context.  The body
of a lambda is evaluated in a scope over the calling context. -/
def applyCallable (world : World Label) (machineOf : Context Label → Machine Label)
    (context : Context Label) :
    Callable Label → List (Value Label) → Run Label (Value Label)
  | .constantFalse, _ => pure (.bool false)
  | .startsWith, arguments => .ofExcept (world.startsWith context arguments)
  | .lambda parameters body, arguments => do
      Run.ofExcept
        ((Callable.lambda parameters body : Callable Label).checkCount
          arguments.length)
      (machineOf (scopeOf context parameters arguments)).evaluate body
  | .host declaration label, arguments =>
      ((world.host.body label world.forest context arguments).run
        (machineOf context)).after [⟨declaration.name, arguments⟩]
  | .named _ inner, arguments =>
      applyCallable world machineOf context inner arguments
  | .mapped label inner, arguments => do
      let rearranged ←
        (world.host.rearrange label world.forest context arguments).run
          (machineOf context)
      applyCallable world machineOf context inner rearranged
  | .filtered label inner, arguments => do
      let kept ←
        keepArguments
          (fun value =>
            (world.host.keeps label world.forest context value).run
              (machineOf context))
          arguments
      applyCallable world machineOf context inner kept

/-- The machine of a context with a number of steps. -/
def machine (world : World Label) : (steps : Nat) → Context Label → Machine Label
  | 0, _ => .stopped
  | steps + 1, context =>
      { evaluate := fun expression =>
          world.evaluateNode context (machine world steps context)
            (world.forest.node expression)
        judge := fun value =>
          world.judgeValue context (machine world steps context) value
        apply := fun callable arguments =>
          world.applyCallable (machine world steps) context callable
            arguments }

/-- Evaluate an expression in a context within a number of steps. -/
def evaluate (world : World Label) (steps : Nat) (context : Context Label)
    (expression : Expression) : Run Label (Value Label) :=
  (world.machine steps context).evaluate expression

end World

end FormulaEngine
