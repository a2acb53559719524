import FormulaEngine.Host.Routine
import FormulaEngine.Proofs.Evaluation.Question
import FormulaEngine.Proofs.Expression.Session

/-!
# Arguments that are references

A parameter may be bound to a reference.  The name in it is looked up in the
calling context, whatever else is bound in the scope of the lambda.  A formula
that is found there is evaluated in the scope all the same, as every stored
formula is evaluated in the context that asks for it.  So local bindings show in
a formula that uses a bound name, and only in such a one.
-/

namespace FormulaEngine

variable {Label : Type}

namespace World

/-- A stored formula, evaluated in a calling context, asks for no name that is bound
in a scope over the context, neither as a reference nor in a call.  The context has no
rule for the references and expressions whose truth is asked for, and the functions do
the same in the scope with the arguments that they are given. -/
structure KeepsClear (world : World Label) (parent : Context Label)
    (bindings : Table Reference (Value Label)) (stored : Expression) : Prop where
  reference : ∀ {name}, world.Asks parent stored (.reference name) →
    bindings.find? name = none
  function : ∀ {name}, world.Asks parent stored (.function name) →
    bindings.find? name.toReference = none
  unruled : ∀ {value}, world.Asks parent stored (.judge value) →
    value.IsPlain ∨ ruleFor parent value = none
  apply : ∀ {callable arguments},
    world.Asks parent stored (.apply callable arguments) → ∀ steps,
      (world.machine steps (.scope parent bindings)).apply callable arguments =
        (world.machine steps parent).apply callable arguments

variable {world : World Label} {parent : Context Label}
  {bindings : Table Reference (Value Label)}

/-- A scope has no rule of its own. -/
theorem ruleFor_scope {value : Value Label}
    (unruled : value.IsPlain ∨ ruleFor parent value = none) :
    ruleFor parent value = ruleFor (.scope parent bindings) value := by
  by_cases isPlain : value.IsPlain
  · rw [ruleFor_of_isPlain isPlain, ruleFor_of_isPlain isPlain]
    rfl
  · have noRule := unruled.resolve_left isPlain
    cases value with
    | reference | expression => exact noRule
    | _ => exact (isPlain (by simp [Value.IsPlain, Value.type])).elim

/-- Clear of the bindings, a formula asks for nothing that a scope answers in another
way. -/
theorem KeepsClear.answersAlike {stored : Expression}
    (clear : world.KeepsClear parent bindings stored) :
    world.AnswersAlike parent (.scope parent bindings)
      (world.Asks parent stored) where
  settings :=
    { kind := rfl
      math := rfl
      isFit := fun _ _ => trivial
      convert := fun _ _ _ => rfl
      converted := fun _ _ _ _ _ => trivial
      write := fun _ _ => rfl
      order := fun _ _ _ _ => rfl }
  closed asks leads := asks.tail leads
  reference asks := by simp only [Context.reference, clear.reference asks]
  function asks := by simp only [Context.function, clear.function asks]
  rule asks := ruleFor_scope (clear.unruled asks)
  apply asks steps := (clear.apply asks steps).symm

/-- A reference that a name is bound to is looked up in the parent of the scope. -/
theorem reference_bound {parameter outer : Reference}
    (bound : bindings.find? parameter = some (.reference outer)) :
    (Context.scope parent bindings).reference parameter =
      parent.reference outer := by
  simp only [Context.reference, bound]

/-- What is found under a name decides how a reference to it evaluates. -/
theorem evaluate_reference {context : Context Label} {expression : Expression}
    {name : Reference}
    (isReference : world.forest.node expression = .reference name) (steps : Nat) :
    world.evaluate (steps + 1) context expression =
      match context.reference name with
      | .error error => .fail error
      | .ok none => .fail (.of (.unknownReference name.text))
      | .ok (some (.expression stored)) => world.evaluate steps context stored
      | .ok (some value) => pure value := by
  simp only [evaluate, machine, isReference, evaluateNode, Context.resolve]
  cases context.reference name with
  | error error => rfl
  | ok held =>
      cases held with
      | none => rfl
      | some value => cases value <;> rfl

/-- A parameter that is bound to a reference evaluates in the scope as the
reference does in the calling context, unless nothing or a formula is found
there.  Without a value both fail, each under the name that was evaluated.  A
formula is evaluated in the scope, which makes no difference if it keeps clear of
the bindings. -/
theorem reference_argument_evaluates (world : World Label)
    (parent : Context Label) {bindings : Table Reference (Value Label)}
    {parameter outer : Reference}
    (bound : bindings.find? parameter = some (.reference outer))
    {argument direct : Expression}
    (isArgument : world.forest.node argument = .reference parameter)
    (isDirect : world.forest.node direct = .reference outer) (steps : Nat) :
    let scope := Context.scope parent bindings
    let inScope := world.evaluate (steps + 1) scope argument
    let outside := world.evaluate (steps + 1) parent direct
    (∀ error, parent.reference outer = .error error →
        inScope = .fail error ∧ outside = .fail error) ∧
      (∀ value, parent.reference outer = .ok (some value) →
        value.IsEvaluated → inScope = pure value ∧ outside = pure value) ∧
      (parent.reference outer = .ok none →
        inScope = .fail (.of (.unknownReference parameter.text)) ∧
          outside = .fail (.of (.unknownReference outer.text))) ∧
      (∀ stored, parent.reference outer = .ok (some (.expression stored)) →
        inScope = world.evaluate steps scope stored ∧
          outside = world.evaluate steps parent stored ∧
          (world.KeepsClear parent bindings stored → inScope = outside)) := by
  intro scope inScope outside
  have scopeRun : inScope = _ := evaluate_reference isArgument steps
  have parentRun : outside = _ := evaluate_reference isDirect steps
  rw [reference_bound bound] at scopeRun
  refine ⟨fun error failed => ?_, fun value found isEvaluated => ?_,
    fun absent => ?_, fun stored found => ?_⟩
  · rw [failed] at scopeRun parentRun
    exact ⟨scopeRun, parentRun⟩
  · rw [found] at scopeRun parentRun
    cases value with
    | expression stored => exact (isEvaluated rfl).elim
    | _ => exact ⟨scopeRun, parentRun⟩
  · rw [absent] at scopeRun parentRun
    exact ⟨scopeRun, parentRun⟩
  · rw [found] at scopeRun parentRun
    refine ⟨scopeRun, parentRun, fun clear => ?_⟩
    have same : world.evaluate steps parent stored =
        world.evaluate steps scope stored :=
      clear.answersAlike.evaluate steps .refl
    exact scopeRun.trans (same.symm.trans parentRun.symm)

end World

/-! ### A stored formula -/

/-- A caller has built three references, to a formula, to a parameter and to a
name. -/
def Session.threeReferences : Session :=
  start
    |>.operate (.build 0 (.reference ⟨"formula"⟩))
    |>.operate (.build 0 (.reference ⟨"x"⟩))
    |>.operate (.build 0 (.reference ⟨"y"⟩))

/-- Tables that hold the third of the references as a formula. -/
def formulaTables : BasicContext Routine where
  references := .ofList
    [(⟨"formula"⟩, .expression (.atRoot 0 ⟨2⟩)), (⟨"y"⟩, .bool false)]

/-- The caller has also built a call with the third reference as its argument, and the
negation of the call. -/
def Session.negatedCall : Session :=
  threeReferences
    |>.operate (.build 0 (.call ⟨"g"⟩ [.atRoot 0 ⟨2⟩]))
    |>.operate (.build 0 (.unary .not (.atRoot 0 ⟨3⟩)))

/-- A parameter for a truth value. -/
def boolParameter : Parameter :=
  ⟨⟨"truth"⟩, .bool, .required, {}⟩

/-- The function of the host that returns its argument. -/
def returningArgument : Callable Routine :=
  .host ⟨⟨"g"⟩, [boolParameter], .any, true⟩ (.argument 0)

/-- Tables with a rule about truth, in which the negated call is a formula. -/
def ruledTables : BasicContext Routine where
  functions := .ofList [(⟨"g"⟩, returningArgument)]
  references := .ofList
    [(⟨"formula"⟩, .expression (.atRoot 0 ⟨4⟩)), (⟨"y"⟩, .bool true)]
  truthiness := some strictTruthiness

/-- What is asked where the negation of a call of the function with the bare name
`y` is evaluated. -/
def negationQuestions (negation call argument : Expression) :
    List (Question Routine) :=
  [.evaluate negation, .evaluate call, .function ⟨"g"⟩,
    .prepare (some boolParameter) argument,
    .convert boolParameter (.reference ⟨"y"⟩), .reference ⟨"y"⟩,
    .apply returningArgument [.bool true], .judge (.bool true)]

theorem mem_negationQuestions {world : World Routine}
    {negation call argument : Expression}
    (isNegation : world.forest.node negation = .unary .not call)
    (isCall : world.forest.node call = .call ⟨"g"⟩ [argument])
    (isBareName : world.forest.referenceName? argument = some ⟨"y"⟩)
    (isTrue : world.Yields (.basic ruledTables) call (.bool true))
    {question : Question Routine}
    (asks : world.Asks (.basic ruledTables) negation question) :
    question ∈ negationQuestions negation call argument := by
  have isFunction : World.lookUp (.basic ruledTables) ⟨"g"⟩ 1 =
      .ok returningArgument := rfl
  have isParameter : parameterAt? returningArgument.core.parameters 0 =
      some boolParameter := rfl
  have isPrepared (steps : ℕ) :
      Context.prepare (.basic ruledTables) world.forest
        (world.machine steps (.basic ruledTables)) returningArgument [argument] =
        pure [.bool true] := by
    simp only [Context.prepare, List.mapIdx_cons, List.mapIdx_nil, Run.forEach,
      isParameter, Context.prepareArgument, isBareName]
    rfl
  refine asks.of_closed (by simp [negationQuestions]) fun asked leads => ?_
  simp only [negationQuestions, List.mem_cons, List.not_mem_nil, or_false] at asked
  rcases asked with rfl | rfl | rfl | rfl | rfl | rfl | rfl | rfl
  · cases leads with
    | node asks =>
        rw [isNegation] at asks
        cases asks with
        | operand => simp [negationQuestions]
        | negated yields =>
            obtain rfl := yields.unique isTrue
            simp [negationQuestions]
  · cases leads with
    | node asks =>
        rw [isCall] at asks
        generalize isNode : Node.call _ _ = node at asks
        cases asks with
        | function =>
            cases isNode
            simp [negationQuestions]
        | @argument _ _ front back argument _ _ found prepared =>
            obtain ⟨rfl, isSingle⟩ := Node.call.inj isNode
            obtain ⟨rfl, isRest⟩ | ⟨rfl, isRest⟩ :=
              List.append_eq_singleton_iff.mp isSingle.symm
            · cases isRest
              cases isFunction.symm.trans found
              simp [negationQuestions, isParameter]
            · cases isRest
        | applied found prepared =>
            cases isNode
            cases isFunction.symm.trans found
            cases (congrArg Run.outcome (isPrepared _)).symm.trans prepared
            simp [negationQuestions]
        | _ => cases isNode
  · cases leads
  · cases leads with
    | argument asks =>
        cases asks with
        | bare isBare resolves => cases resolves
        | held isBare resolves found => cases resolves
        | passed isBare passes wanted =>
            cases isBareName.symm.trans isBare
            simp [negationQuestions]
        | evaluated notBare wanted => cases isBareName.symm.trans notBare
        | converted notBare wanted yields => cases isBareName.symm.trans notBare
  · cases leads
    simp [negationQuestions]
  · cases leads
  · cases leads
  · cases leads with
    | judged noRule asks => cases asks

/-- Neither a binding of another name, nor a rule about truth, nor a function that
returns its argument makes a difference to the formula. -/
theorem reference_argument_evaluates_clear :
    let world : World Routine := ⟨Session.negatedCall.forest, Routine.host⟩
    let scope := (Context.basic ruledTables).bind
      [(⟨"x"⟩, .reference ⟨"formula"⟩), (⟨"z"⟩, .bool true)]
    world.evaluate 5 scope (.atRoot 0 ⟨1⟩) =
        world.evaluate 5 (.basic ruledTables) (.atRoot 0 ⟨0⟩) ∧
      (world.evaluate 5 scope (.atRoot 0 ⟨1⟩)).outcome = .value (.bool false) := by
  intro world scope
  let bindings : Table Reference (Value Routine) :=
    .ofList [(⟨"x"⟩, .reference ⟨"formula"⟩), (⟨"z"⟩, .bool true)]
  have asked {question : Question Routine}
      (asks : world.Asks (.basic ruledTables) (.atRoot 0 ⟨4⟩) question) :=
    mem_negationQuestions rfl rfl rfl ⟨2, rfl⟩ asks
  have clear : world.KeepsClear (.basic ruledTables) bindings (.atRoot 0 ⟨4⟩) := by
    constructor
    · intro name asks
      obtain rfl : name = ⟨"y"⟩ := by simpa [negationQuestions] using asked asks
      rfl
    · intro name asks
      obtain rfl : name = ⟨"g"⟩ := by simpa [negationQuestions] using asked asks
      rfl
    · intro value asks
      obtain rfl : value = .bool true := by simpa [negationQuestions] using asked asks
      exact .inl (by simp [Value.IsPlain, Value.type])
    · intro callable arguments asks steps
      obtain ⟨rfl, rfl⟩ : callable = returningArgument ∧ arguments = [.bool true] := by
        simpa [negationQuestions] using asked asks
      cases steps <;> rfl
  have bound : bindings.find? ⟨"x"⟩ = some (.reference ⟨"formula"⟩) := rfl
  have isArgument : world.forest.node (.atRoot 0 ⟨1⟩) = .reference ⟨"x"⟩ := rfl
  have isDirect : world.forest.node (.atRoot 0 ⟨0⟩) = .reference ⟨"formula"⟩ :=
    rfl
  obtain ⟨-, -, -, formula⟩ := World.reference_argument_evaluates world
    (.basic ruledTables) bound isArgument isDirect 4
  exact ⟨(formula (.atRoot 0 ⟨4⟩) rfl).2.2 clear, rfl⟩

/-- A parameter of the name that the formula uses is seen by the formula. -/
theorem reference_argument_captured :
    let world : World Routine := ⟨Session.threeReferences.forest, Routine.host⟩
    let parameters : List Parameter :=
      [⟨⟨"x"⟩, .any, .required, {}⟩, ⟨⟨"y"⟩, .any, .required, {}⟩]
    ((world.machine 4 (.basic formulaTables)).apply
        (.lambda parameters (.atRoot 0 ⟨1⟩))
        [.reference ⟨"formula"⟩, .bool true]).outcome = .value (.bool true) ∧
      (world.evaluate 4 (.basic formulaTables) (.atRoot 0 ⟨0⟩)).outcome =
        .value (.bool false) :=
  ⟨rfl, rfl⟩

end FormulaEngine
