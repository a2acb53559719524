import FormulaEngine.Expression.Basic

/-!
# Visitors

A visitor reacts to events while an expression is walked, left to right from the
root down.  Every node starts and finishes; within that pair a leaf has one
event and any other node has a pair of its own around its children.  A visitor
that answers a start by skipping passes over what lies inside the pair, whose
finish is reached all the same.
-/

namespace FormulaEngine

/-- Whether to go on inside a pair of events. -/
inductive Visiting
  | continue
  | skip
  deriving DecidableEq, Repr

/-- What happens during a walk. -/
inductive VisitEvent
  | start
  | finish
  | startUnary (op : UnaryOp)
  | finishUnary (op : UnaryOp)
  | startBinary (op : BinaryOp)
  | finishBinary (op : BinaryOp)
  | startCall (function : FunctionName)
  | finishCall (function : FunctionName)
  | startLambda (parameters : List Parameter)
  | finishLambda (parameters : List Parameter)
  | value (literal : Literal)
  | reference (name : Reference)
  deriving DecidableEq

namespace VisitEvent

def name : VisitEvent → String
  | start => "start"
  | finish => "end"
  | startUnary _ => "start_unary"
  | finishUnary _ => "end_unary"
  | startBinary _ => "start_binary"
  | finishBinary _ => "end_binary"
  | startCall _ => "start_call"
  | finishCall _ => "end_call"
  | startLambda _ => "start_lambda"
  | finishLambda _ => "end_lambda"
  | value _ => "value"
  | reference _ => "reference"

/-- Write what an event says about its node; the events of every node say
nothing. -/
def detail? : VisitEvent → Option String
  | start | finish => none
  | startUnary op | finishUnary op => some op.symbol
  | startBinary op | finishBinary op => some op.symbol
  | startCall function | finishCall function => some function.text
  | startLambda parameters | finishLambda parameters =>
      some (", ".intercalate (parameters.map Parameter.write))
  | value literal => some literal.write
  | reference name => some name.text

end VisitEvent

/-- A visitor with a state: its reactions to events, and the expressions that it
handles itself instead of having them walked.  The answer to an event that
starts no pair is not looked at. -/
structure Visitor (State : Type) where
  react : VisitEvent → Expression → State → Visiting × State
  intercept : Expression → State → Option State := fun _ _ => none

namespace Visitor

variable {State : Type}

/-- React to an event whose answer does not matter. -/
def notice (visitor : Visitor State) (event : VisitEvent)
    (expression : Expression) (state : State) : State :=
  (visitor.react event expression state).2

/-- React to the start of a pair, go inside unless told to skip, and react to
the finish. -/
def around (visitor : Visitor State) (opening closing : VisitEvent)
    (expression : Expression) (inside : State → State) (state : State) :
    State :=
  let (visiting, state) := visitor.react opening expression state
  let state :=
    match visiting with
    | .continue => inside state
    | .skip => state
  visitor.notice closing expression state

/-- Walk an expression, given the walk of its children. -/
def walkNode (visitor : Visitor State) (forest : Forest)
    (walkChild : Expression → State → State) (expression : Expression)
    (state : State) : State :=
  match visitor.intercept expression state with
  | some state => state
  | none =>
      let walkAll := fun (children : List Expression) (state : State) =>
        children.foldl (fun state child => walkChild child state) state
      visitor.around .start .finish expression
        (match forest.node expression with
        | .value literal => visitor.notice (.value literal) expression
        | .reference name => visitor.notice (.reference name) expression
        | .unary op operand =>
            visitor.around (.startUnary op) (.finishUnary op) expression
              (walkAll [operand])
        | .binary op left right =>
            visitor.around (.startBinary op) (.finishBinary op) expression
              (walkAll [left, right])
        | .call function arguments =>
            visitor.around (.startCall function) (.finishCall function)
              expression (walkAll arguments)
        | .lambda parameters body =>
            visitor.around (.startLambda parameters)
              (.finishLambda parameters) expression (walkAll [body]))
        state

/-- Walk an expression to a depth. -/
def walkTo (visitor : Visitor State) (forest : Forest) :
    (depth : Nat) → Expression → State → State
  | 0, _, state => state
  | depth + 1, expression, state =>
      visitor.walkNode forest (visitor.walkTo forest depth) expression state

/-- Walk an expression.  The depth of its tree is bounded by the index of its
node. -/
def walk (visitor : Visitor State) (forest : Forest)
    (expression : Expression) (state : State) : State :=
  visitor.walkTo forest (expression.node.index + 1) expression state

end Visitor

end FormulaEngine
