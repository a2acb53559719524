import FormulaEngine.Proofs.Evaluation.Simulation
import FormulaEngine.Proofs.Evaluation.Truth
import Mathlib.Logic.Relation

/-!
# What an evaluation asks

An evaluation asks its context what names stand for, which functions are called and
how values are judged, and it asks for the values of other expressions and for the
results of functions.  What is asked next depends on the answers so far: a right
operand is evaluated if the left one has a value, an argument is prepared if those
before it could be, and a value is judged if it comes up.  Two contexts that answer
alike what is asked evaluate alike, whatever they would answer otherwise.
-/

namespace FormulaEngine

variable {Label : Type}

/-- What may be asked in an evaluation: the value of an expression, what a name stands
for, the function that is called by a name, an argument for a parameter or for none,
a value converted for a parameter, the truth of a value, and the result of a
function. -/
inductive Question (Label : Type)
  | evaluate (expression : Expression)
  | reference (name : Reference)
  | function (name : FunctionName)
  | prepare (parameter : Option Parameter) (argument : Expression)
  | convert (parameter : Parameter) (value : Value Label)
  | judge (value : Value Label)
  | apply (callable : Callable Label) (arguments : List (Value Label))

namespace World

/-- An expression has a value in a context, within some number of steps. -/
def Yields (world : World Label) (context : Context Label)
    (expression : Expression) (value : Value Label) : Prop :=
  ∃ steps, (world.evaluate steps context expression).outcome = .value value

/-- More steps make no other value. -/
theorem Yields.unique {world : World Label} {context : Context Label}
    {expression : Expression} {first second : Value Label}
    (yieldsFirst : world.Yields context expression first)
    (yieldsSecond : world.Yields context expression second) : first = second := by
  have later {steps others : ℕ} {value other : Value Label} (le : steps ≤ others)
      (ends : (world.evaluate steps context expression).outcome = .value value)
      (otherEnds : (world.evaluate others context expression).outcome =
        .value other) : value = other := by
    have finished : (world.evaluate steps context expression).outcome ≠ .cutOff := by
      rw [ends]
      nofun
    have same : world.evaluate steps context expression =
        world.evaluate others context expression :=
      ((world.machine_agree_of_le context le).evaluate expression
        trivial).eq_of_finished finished
    rw [← same, ends] at otherEnds
    exact Outcome.value.inj otherEnds
  obtain ⟨steps, ends⟩ := yieldsFirst
  obtain ⟨others, otherEnds⟩ := yieldsSecond
  rcases Nat.le_total steps others with le | ge
  · exact later le ends otherEnds
  · exact (later ge otherEnds ends).symm

/-- The questions that come up where a node is evaluated in a context. -/
inductive NodeAsks (world : World Label) (context : Context Label) :
    Node Expression → Question Label → Prop
  | name {name : Reference} : NodeAsks world context (.reference name) (.reference name)
  | stored {name : Reference} {stored : Expression}
      (found : context.resolve name = .ok (.expression stored)) :
      NodeAsks world context (.reference name) (.evaluate stored)
  | operand {op : UnaryOp} {operand : Expression} :
      NodeAsks world context (.unary op operand) (.evaluate operand)
  | negated {operand : Expression} {value : Value Label}
      (yields : world.Yields context operand value) :
      NodeAsks world context (.unary .not operand) (.judge value)
  | left {op : BinaryOp} {left right : Expression} :
      NodeAsks world context (.binary op left right) (.evaluate left)
  | right {op : BinaryOp} {left right : Expression} {first : Value Label}
      (leftYields : world.Yields context left first) :
      NodeAsks world context (.binary op left right) (.evaluate right)
  -- Logical operators ask for truth where they do not take their operands bit by bit.
  | leftTruth {op : BinaryOp} {grouped : ArithmeticOp} {left right : Expression}
      {first second : Value Label} (isLogical : op.group = .logical grouped)
      (leftYields : world.Yields context left first)
      (rightYields : world.Yields context right second)
      (noBits : context.bitOperands? first second = .ok none) :
      NodeAsks world context (.binary op left right) (.judge first)
  | rightTruth {op : BinaryOp} {grouped : ArithmeticOp} {left right : Expression}
      {first second : Value Label} {steps : ℕ} {truth : Bool}
      (isLogical : op.group = .logical grouped)
      (leftYields : world.Yields context left first)
      (rightYields : world.Yields context right second)
      (noBits : context.bitOperands? first second = .ok none)
      (judged : ((world.machine steps context).judge first).outcome = .value truth) :
      NodeAsks world context (.binary op left right) (.judge second)
  | function {called : FunctionName} {arguments : List Expression} :
      NodeAsks world context (.call called arguments) (.function called)
  -- An argument is prepared after those in front of it.
  | argument {called : FunctionName} {callable : Callable Label}
      {front back : List Expression} {argument : Expression} {steps : ℕ}
      {values : List (Value Label)}
      (found : lookUp context called (front ++ argument :: back).length =
        .ok callable)
      (prepared : (context.prepare world.forest (world.machine steps context)
        callable front).outcome = .value values) :
      NodeAsks world context (.call called (front ++ argument :: back))
        (.prepare (parameterAt? callable.core.parameters front.length) argument)
  | applied {called : FunctionName} {callable : Callable Label}
      {arguments : List Expression} {steps : ℕ} {values : List (Value Label)}
      (found : lookUp context called arguments.length = .ok callable)
      (prepared : (context.prepare world.forest (world.machine steps context)
        callable arguments).outcome = .value values) :
      NodeAsks world context (.call called arguments) (.apply callable values)

/-- The questions that come up where an argument is prepared for a parameter.  A bare
reference is not evaluated, and all else is where a value is wanted. -/
inductive ArgumentAsks (world : World Label) (context : Context Label)
    (parameter : Parameter) (argument : Expression) : Question Label → Prop
  | bare {name : Reference}
      (isBare : world.forest.referenceName? argument = some name)
      (resolves : parameter.flags.resolvesReferences = true) :
      ArgumentAsks world context parameter argument (.reference name)
  | held {name : Reference} {value : Value Label}
      (isBare : world.forest.referenceName? argument = some name)
      (resolves : parameter.flags.resolvesReferences = true)
      (found : context.resolve name = .ok value) :
      ArgumentAsks world context parameter argument (.convert parameter value)
  | passed {name : Reference}
      (isBare : world.forest.referenceName? argument = some name)
      (passes : parameter.flags.resolvesReferences = false)
      (wanted : parameter.flags.unevaluated = false) :
      ArgumentAsks world context parameter argument
        (.convert parameter (.reference name))
  | evaluated (notBare : world.forest.referenceName? argument = none)
      (wanted : parameter.flags.unevaluated = false) :
      ArgumentAsks world context parameter argument (.evaluate argument)
  | converted {value : Value Label}
      (notBare : world.forest.referenceName? argument = none)
      (wanted : parameter.flags.unevaluated = false)
      (yields : world.Yields context argument value) :
      ArgumentAsks world context parameter argument (.convert parameter value)

/-- The questions that come up where a value is judged by default. -/
inductive TruthAsks (world : World Label) (context : Context Label) :
    Value Label → Question Label → Prop
  | name {name : Reference} :
      TruthAsks world context (.reference name) (.reference name)
  | held {name : Reference} {value : Value Label}
      (found : context.resolve name = .ok value) :
      TruthAsks world context (.reference name) (.judge value)
  | formula {stored : Expression} :
      TruthAsks world context (.expression stored) (.evaluate stored)
  | result {stored : Expression} {value : Value Label}
      (yields : world.Yields context stored value) :
      TruthAsks world context (.expression stored) (.judge value)

/-- The second question comes up where the first is answered in a context. -/
inductive Leads (world : World Label) (context : Context Label) :
    Question Label → Question Label → Prop
  | node {expression : Expression} {question : Question Label}
      (asks : world.NodeAsks context (world.forest.node expression) question) :
      Leads world context (.evaluate expression) question
  | surplus {argument : Expression} :
      Leads world context (.prepare none argument) (.evaluate argument)
  | argument {parameter : Parameter} {argument : Expression}
      {question : Question Label}
      (asks : world.ArgumentAsks context parameter argument question) :
      Leads world context (.prepare (some parameter) argument) question
  | dereferenced {parameter : Parameter} {name : Reference}
      (takesNone : parameter.type.takesReference = false) :
      Leads world context (.convert parameter (.reference name)) (.reference name)
  | judged {value : Value Label} {question : Question Label}
      (noRule : ruleFor context value = none)
      (asks : world.TruthAsks context value question) :
      Leads world context (.judge value) question

/-- A question comes up in the evaluation of an expression in a context. -/
def Asks (world : World Label) (context : Context Label)
    (expression : Expression) : Question Label → Prop :=
  Relation.ReflTransGen (world.Leads context) (.evaluate expression)

theorem Asks.of_closed {world : World Label} {context : Context Label}
    {expression : Expression} {question : Question Label}
    (asks : world.Asks context expression question) {holds : Question Label → Prop}
    (start : holds (.evaluate expression))
    (closed : ∀ {question next}, holds question →
      world.Leads context question next → holds next) : holds question := by
  induction asks with
  | refl => exact start
  | tail _ leads ih => exact closed ih leads

/-- Two contexts have the same settings and give the same answers to questions among
which are all that these lead to. -/
structure AnswersAlike (world : World Label) (context other : Context Label)
    (asked : Question Label → Prop) : Prop where
  settings : ConvertAlike (fun _ => True) (fun _ => True) world.forest context
    world.forest other
  closed : ∀ {question next}, asked question →
    world.Leads context question next → asked next
  reference : ∀ {name}, asked (.reference name) →
    context.reference name = other.reference name
  function : ∀ {name}, asked (.function name) →
    context.function name = other.function name
  rule : ∀ {value}, asked (.judge value) →
    ruleFor context value = ruleFor other value
  apply : ∀ {callable arguments}, asked (.apply callable arguments) → ∀ steps,
    (world.machine steps context).apply callable arguments =
      (world.machine steps other).apply callable arguments

namespace AnswersAlike

variable {world : World Label} {context other : Context Label}
  {asked : Question Label → Prop}

section Step

variable (alike : world.AnswersAlike context other asked)

include alike

theorem resolve {name : Reference} (isAsked : asked (.reference name)) :
    context.resolve name = other.resolve name := by
  simp only [Context.resolve, alike.reference isAsked]

theorem convertArgument (function : String) {parameter : Parameter}
    {value : Value Label} (isAsked : asked (.convert parameter value)) :
    context.convertArgument world.forest function parameter value =
      other.convertArgument world.forest function parameter value := by
  have dereferenced : context.dereference parameter value =
      other.dereference parameter value := by
    cases value with
    | reference name =>
        simp only [Context.dereference]
        split
        next => rfl
        next takesNone =>
          have isName := alike.closed isAsked
            (.dereferenced (Bool.eq_false_iff.mpr takesNone))
          exact alike.resolve isName
    | _ => rfl
  have fitted : context.fitArgument world.forest function parameter =
      other.fitArgument world.forest function parameter :=
    funext fun _ =>
      (Context.fitArgument_alike alike.settings function trivial).1
  rw [Context.convertArgument_eq, Context.convertArgument_eq, dereferenced, fitted]

/-- Operators that judge nothing do the same. -/
theorem operators :
    OperateAlike .together (fun _ => True) world.forest context .stopped
      world.forest other .stopped :=
  alike.settings.operate fun _ _ => Run.agrees_cutOff nofun

/-! With the same values of the expressions and the same truth of the values that are
asked for, one step has the same answers. -/

variable {steps : ℕ}
  (evaluates : ∀ {expression}, asked (.evaluate expression) →
    world.evaluate steps context expression =
      world.evaluate steps other expression)
  (judges : ∀ {value}, asked (.judge value) →
    (world.machine steps context).judge value =
      (world.machine steps other).judge value)

section Evaluates

include evaluates

theorem prepareArgument (function : String) {parameter : Parameter}
    {argument : Expression} (isAsked : asked (.prepare (some parameter) argument)) :
    context.prepareArgument world.forest (world.machine steps context) function
        parameter argument =
      other.prepareArgument world.forest (world.machine steps other) function
        parameter argument := by
  simp only [Context.prepareArgument]
  cases isBare : world.forest.referenceName? argument with
  | some name =>
      simp only
      split
      next resolves =>
        have isName := alike.closed isAsked (.argument (.bare isBare resolves))
        refine Run.bind_congr (congrArg _ (alike.resolve isName)) fun value isHeld => ?_
        have found := Run.ok_of_outcome_ofExcept isHeld
        rw [alike.convertArgument function
          (alike.closed isAsked (.argument (.held isBare resolves found)))]
      next passes =>
        split
        next => rfl
        next wanted =>
          rw [alike.convertArgument function (alike.closed isAsked (.argument
            (.passed isBare (Bool.eq_false_iff.mpr passes)
              (Bool.eq_false_iff.mpr wanted))))]
  | none =>
      simp only
      split
      next => rfl
      next isWanted =>
        have wanted := Bool.eq_false_iff.mpr isWanted
        refine Run.bind_congr
          (evaluates (alike.closed isAsked (.argument (.evaluated isBare wanted))))
          fun value yields => ?_
        rw [alike.convertArgument function
          (alike.closed isAsked (.argument (.converted isBare wanted ⟨steps, yields⟩)))]

theorem prepare {called : FunctionName} {arguments : List Expression}
    {callable : Callable Label}
    (isAsked : ∀ {question}, world.NodeAsks context (.call called arguments) question →
      asked question)
    (found : lookUp context called arguments.length = .ok callable) :
    context.prepare world.forest (world.machine steps context) callable arguments =
      other.prepare world.forest (world.machine steps other) callable
        arguments := by
  refine Run.forEach_congr fun before item after isItems values prepared => ?_
  obtain ⟨front, rest, rfl, rfl, isRest⟩ := List.mapIdx_eq_append_iff.mp isItems
  obtain ⟨argument, back, rfl, rfl, -⟩ := List.mapIdx_eq_cons_iff.mp isRest
  have isArgument := isAsked (.argument found prepared)
  simp only [Nat.zero_add]
  cases isParameter : parameterAt? callable.core.parameters front.length with
  | some parameter =>
      rw [isParameter] at isArgument
      exact alike.prepareArgument evaluates _ isArgument
  | none =>
      rw [isParameter] at isArgument
      exact evaluates (alike.closed isArgument .surplus)

end Evaluates

section Judges

include judges

theorem unary {op : UnaryOp} {operand : Expression} {value : Value Label}
    (isAsked : ∀ {question}, world.NodeAsks context (.unary op operand) question →
      asked question)
    (yields : world.Yields context operand value) :
    context.unary (world.machine steps context) op value =
      other.unary (world.machine steps other) op value := by
  cases op with
  | negate => simp only [Context.unary, Context.negate, alike.settings.kind]
  | not =>
      exact Run.bind_congr (judges (isAsked (.negated yields))) fun _ _ => rfl

theorem binary {op : BinaryOp} {left right : Expression}
    {first second : Value Label}
    (isAsked : ∀ {question},
      world.NodeAsks context (.binary op left right) question → asked question)
    (leftYields : world.Yields context left first)
    (rightYields : world.Yields context right second) :
    context.binary world.forest (world.machine steps context) op first second =
      other.binary world.forest (world.machine steps other) op first second := by
  unfold Context.binary
  cases isGroup : op.group with
  | arithmetic grouped =>
      exact congrArg Run.ofExcept
        (alike.operators.arithmetic op grouped trivial trivial)
  | comparison relation =>
      exact congrArg Run.ofExcept
        (alike.operators.comparison op relation trivial trivial)
  | logical grouped =>
      have sameBits : context.bitOperands? first second =
          other.bitOperands? first second := by
        simp only [Context.bitOperands?, alike.settings.kind]
      simp only [Context.logical_eq]
      refine Run.bind_congr (congrArg _ sameBits) fun operands isOperands => ?_
      cases operands with
      | some operands =>
          exact congrArg Run.ofExcept
            (alike.operators.combine grouped operands.1 operands.2)
      | none =>
          have noBits := Run.ok_of_outcome_ofNumeric isOperands
          refine Run.bind_congr
            (judges (isAsked (.leftTruth isGroup leftYields rightYields noBits)))
            fun truth judged => ?_
          exact Run.bind_congr
            (judges (isAsked
              (.rightTruth isGroup leftYields rightYields noBits judged)))
            fun _ _ => rfl

end Judges

include evaluates judges

theorem evaluateNode {expression : Expression}
    (isAsked : asked (.evaluate expression)) :
    world.evaluate (steps + 1) context expression =
      world.evaluate (steps + 1) other expression := by
  have nodeAsked {question : Question Label}
      (asks : world.NodeAsks context (world.forest.node expression) question) :
      asked question :=
    alike.closed isAsked (.node asks)
  change world.evaluateNode _ _ (world.forest.node expression) =
    world.evaluateNode _ _ (world.forest.node expression)
  generalize world.forest.node expression = node at nodeAsked ⊢
  cases node with
  | value literal => simp only [World.evaluateNode, alike.settings.kind]
  | reference name =>
      refine Run.bind_congr (congrArg _ (alike.resolve (nodeAsked .name)))
        fun value isHeld => ?_
      cases value with
      | expression stored =>
          have found := Run.ok_of_outcome_ofExcept isHeld
          exact evaluates (nodeAsked (.stored found))
      | _ => rfl
  | unary op operand =>
      refine Run.bind_congr (evaluates (nodeAsked .operand)) fun value yields => ?_
      exact alike.unary judges nodeAsked ⟨steps, yields⟩
  | binary op left right =>
      refine Run.bind_congr (evaluates (nodeAsked .left)) fun first leftYields => ?_
      refine Run.bind_congr (evaluates (nodeAsked (.right ⟨steps, leftYields⟩)))
        fun second rightYields => ?_
      exact alike.binary judges nodeAsked ⟨steps, leftYields⟩ ⟨steps, rightYields⟩
  | call called arguments =>
      have sameFunction : lookUp context called arguments.length =
          lookUp other called arguments.length := by
        simp only [lookUp, alike.function (nodeAsked .function)]
      rw [evaluateNode_call, evaluateNode_call]
      refine Run.bind_congr (congrArg _ sameFunction) fun callable isFound => ?_
      have found := Run.ok_of_outcome_ofExcept isFound
      refine Run.bind_congr (alike.prepare evaluates nodeAsked found)
        fun values prepared => ?_
      rw [alike.apply (nodeAsked (.applied found prepared)) steps]
  | lambda parameters body => rfl

theorem judgeValue {value : Value Label} (isAsked : asked (.judge value)) :
    world.judgeValue context (world.machine steps context) value =
      world.judgeValue other (world.machine steps other) value := by
  simp only [judgeValue_eq, judgeBy, ← alike.rule isAsked]
  cases noRule : ruleFor context value with
  | some rule => rfl
  | none =>
      have truthAsked {question : Question Label}
          (asks : world.TruthAsks context value question) : asked question :=
        alike.closed isAsked (.judged noRule asks)
      cases value with
      | reference name =>
          refine Run.bind_congr (congrArg _ (alike.resolve (truthAsked .name)))
            fun held isHeld => ?_
          exact judges (truthAsked (.held (Run.ok_of_outcome_ofExcept isHeld)))
      | expression stored =>
          refine Run.bind_congr (evaluates (truthAsked .formula))
            fun result yields => ?_
          exact judges (truthAsked (.result ⟨steps, yields⟩))
      | _ => rfl

end Step

/-- An expression that may be asked for evaluates alike in contexts that answer alike. -/
theorem evaluate (alike : world.AnswersAlike context other asked) (steps : ℕ)
    {expression : Expression} (isAsked : asked (.evaluate expression)) :
    world.evaluate steps context expression =
      world.evaluate steps other expression := by
  have both : (∀ {expression}, asked (.evaluate expression) →
      world.evaluate steps context expression =
        world.evaluate steps other expression) ∧
      ∀ {value}, asked (.judge value) →
        (world.machine steps context).judge value =
          (world.machine steps other).judge value := by
    induction steps with
    | zero => exact ⟨fun _ => rfl, fun _ => rfl⟩
    | succ steps ih =>
        obtain ⟨evaluates, judges⟩ := ih
        exact ⟨alike.evaluateNode evaluates judges, alike.judgeValue evaluates judges⟩
  exact both.1 isAsked

end AnswersAlike

end World

end FormulaEngine
