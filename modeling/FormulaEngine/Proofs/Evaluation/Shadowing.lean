import FormulaEngine.Host.Routine
import FormulaEngine.Proofs.Context.Table
import FormulaEngine.Proofs.Evaluation.Question
import FormulaEngine.Proofs.Expression.Session

/-!
# What a parameter hides

Applying a lambda binds its parameters to the arguments, one to one from the left.
A parameter that has an argument hides what the calling context holds under its
name.  A parameter that is left without one, which its cardinality may allow, is
not bound at all, and its name is looked up in the calling context.

A parameter that is bound to a function is called by its name.  One that is bound
to a reference is not: the value of the reference is found under the name of the
parameter, but a call looks the name of the parameter up in the parent.
-/

namespace FormulaEngine

variable {Label : Type}

/-- The references by which parameters are referred to. -/
def parameterNames (parameters : List Parameter) : List Reference :=
  parameters.map (·.name.toReference)

/-- A shape is no call, and the name in a reference is in use. -/
def Shape.RefersWithin (used : Reference → Prop) : Shape → Prop
  | .reference name => used name
  | .call _ => False
  | _ => True

theorem Forest.not_call_of_refersWithin {forest : Forest}
    (wellFormed : forest.WellFormed) {used : Reference → Prop}
    {expression : Expression}
    (refers : (forest.tree expression).All (Shape.RefersWithin used))
    {name : FunctionName} {arguments : List Expression} :
    forest.node expression ≠ .call name arguments := by
  intro isCall
  have here := ((all_tree_iff wellFormed).mp refers).1
  rwa [isCall] at here

/-- The questions that come up in a body without calls, as long as only plain values
do: for names in use, and for the truth of plain values. -/
def Question.RefersWithin (forest : Forest) (used : Reference → Prop) :
    Question Label → Prop
  | .evaluate expression =>
      (forest.tree expression).All (Shape.RefersWithin used)
  | .reference name => used name
  | .judge value => value.IsPlain
  | _ => False

/-- Two basic contexts have the same settings, and hold the same under every
reference outside a list. -/
structure BasicContext.AlikeOutside (names : List Reference)
    (first second : BasicContext Label) : Prop where
  config : first.config = second.config
  converter : first.converter = second.converter
  truthiness : first.truthiness = second.truthiness
  references : ∀ name, name ∉ names →
    first.references.find? name = second.references.find? name

namespace World

variable {world : World Label}

/-! ### Parameters with and without arguments -/

section Filled

variable {parameters : List Parameter} {arguments : List (Value Label)}

/-- The names of the parameters that have an argument. -/
def filledNames (parameters : List Parameter) (arguments : List (Value Label)) :
    List Reference :=
  (parameterNames parameters).take arguments.length

/-- What the parameters are bound to when a lambda is applied. -/
def bindingsOf (parameters : List Parameter) (arguments : List (Value Label)) :
    Table Reference (Value Label) :=
  .ofList ((parameterNames parameters).zip arguments)

theorem find?_bindingsOf_eq_none_iff {name : Reference} :
    (bindingsOf parameters arguments).find? name = none ↔
      name ∉ filledNames parameters arguments := by
  rw [bindingsOf, Table.find?_ofList_eq_none_iff, List.zip_eq_zip_take_min,
    List.map_fst_zip (by simp), min_comm, ← List.take_eq_take_min, filledNames]

theorem mem_of_find?_bindingsOf {name : Reference} {value : Value Label}
    (found : (bindingsOf parameters arguments).find? name = some value) :
    value ∈ arguments :=
  (List.of_mem_zip (Table.mem_of_find?_ofList found)).2

/-- A parameter without an argument is looked up in the calling context. -/
theorem reference_unfilled (context : Context Label) {name : Reference}
    (unfilled : name ∉ filledNames parameters arguments) :
    (scopeOf context parameters arguments).reference name =
      context.reference name := by
  have unbound := find?_bindingsOf_eq_none_iff.mpr unfilled
  change (Context.scope context (bindingsOf parameters arguments)).reference _ = _
  simp only [Context.reference, unbound]

/-- A parameter with a plain argument is not looked up in the calling context. -/
theorem reference_filled
    (plainArguments : ∀ argument ∈ arguments, argument.IsPlain)
    {name : Reference} (filled : name ∈ filledNames parameters arguments) :
    ∃ value, value.IsPlain ∧ ∀ context : Context Label,
      (scopeOf context parameters arguments).reference name =
        .ok (some value) := by
  have bound : (bindingsOf parameters arguments).find? name ≠ none :=
    fun unbound => find?_bindingsOf_eq_none_iff.mp unbound filled
  obtain ⟨value, found⟩ := Option.ne_none_iff_exists'.mp bound
  have isPlain := plainArguments value (mem_of_find?_bindingsOf found)
  refine ⟨value, isPlain, fun context => ?_⟩
  change (Context.scope context (bindingsOf parameters arguments)).reference _ = _
  cases value with
  | reference outer => exact (isPlain.2 rfl).elim
  | _ => simp only [Context.reference, found]

/-- Plain arguments over plain tables make a scope that holds plain values. -/
theorem isPlain_of_resolve_scopeOf
    (plainArguments : ∀ argument ∈ arguments, argument.IsPlain)
    {tables : BasicContext Label}
    (plainTables : ∀ name value, tables.references.find? name = some value →
      value.IsPlain)
    {name : Reference} {value : Value Label}
    (found : (scopeOf (.basic tables) parameters arguments).resolve name =
      .ok value) : value.IsPlain := by
  obtain ⟨held, isHeld, found⟩ := Attempt.of_bind found
  by_cases isFilled : name ∈ filledNames parameters arguments
  · obtain ⟨bound, isPlain, same⟩ := reference_filled plainArguments isFilled
    rw [same] at isHeld
    cases isHeld
    cases found
    exact isPlain
  · rw [reference_unfilled _ isFilled] at isHeld
    cases held with
    | none => cases found
    | some held =>
        cases found
        exact plainTables name value (Except.ok.inj isHeld)

/-- Without calls, plain values are all that comes up in a context that holds plain
values. -/
theorem Yields.isPlain {context : Context Label} {expression : Expression}
    {value : Value Label} (yields : world.Yields context expression value)
    (holdsPlain : ∀ {name held}, context.resolve name = .ok held → held.IsPlain)
    (notCall : ∀ {name arguments},
      world.forest.node expression ≠ .call name arguments) : value.IsPlain := by
  obtain ⟨steps, ends⟩ := yields
  suffices plain : (world.evaluate steps context expression).Ensures Value.IsPlain from
    plain value ends
  cases steps with
  | zero => exact nofun
  | succ steps =>
      change (world.evaluateNode _ _ (world.forest.node expression)).Ensures _
      have operators := OperateAlike.itself world.forest context
        (world.machine steps context)
      cases isNode : world.forest.node expression with
      | value literal =>
          exact Run.ensures_ofNumeric fun _ succeeds =>
            (isScalar_literal succeeds).isPlain
      | reference name =>
          refine (Run.ensures_ofExcept fun _ => holdsPlain).bind fun held isPlain => ?_
          cases held with
          | expression stored => exact (isPlain.1 rfl).elim
          | _ => exact Run.ensures_pure isPlain
      | unary op operand =>
          exact (Run.ensures_trivially _).bind fun _ _ =>
            (operators.unary op trivial).ensures.imp fun _ => Value.IsScalar.isPlain
      | binary op left right =>
          exact (Run.ensures_trivially _).bind fun _ _ =>
            (Run.ensures_trivially _).bind fun _ _ =>
              (operators.binary op trivial trivial).ensures.imp fun _ =>
                Value.IsScalar.isPlain
      | call name arguments => exact (notCall isNode).elim
      | lambda parameters body =>
          exact Run.ensures_pure (by simp [Value.IsPlain, Value.type])

/-- What a body without calls asks leads to nothing else, where only plain values are
held. -/
theorem closed_refersWithin (wellFormed : world.forest.WellFormed)
    {used : Reference → Prop} {context : Context Label}
    (holdsPlain : ∀ {name held}, context.resolve name = .ok held → held.IsPlain)
    {question next : Question Label}
    (isWithin : question.RefersWithin world.forest used)
    (leads : world.Leads context question next) :
    next.RefersWithin world.forest used := by
  cases leads with
  | node asks =>
      obtain ⟨here, below⟩ := (Forest.all_tree_iff wellFormed).mp isWithin
      have plain {child : Expression} {value : Value Label}
          (isWithin : (world.forest.tree child).All (Shape.RefersWithin used))
          (yields : world.Yields context child value) : value.IsPlain :=
        yields.isPlain holdsPlain (Forest.not_call_of_refersWithin wellFormed isWithin)
      generalize world.forest.node _ = node at asks here below
      cases asks with
      | name => exact here
      | stored found => exact ((holdsPlain found).1 rfl).elim
      | operand => exact below _ (by simp [Node.children])
      | negated yields => exact plain (below _ (by simp [Node.children])) yields
      | left => exact below _ (by simp [Node.children])
      | right => exact below _ (by simp [Node.children])
      | leftTruth _ yields => exact plain (below _ (by simp [Node.children])) yields
      | rightTruth _ _ yields => exact plain (below _ (by simp [Node.children])) yields
      | _ => exact here.elim
  | judged _ asks =>
      cases asks with
      | name | held => exact (isWithin.2 rfl).elim
      | formula | result => exact (isWithin.1 rfl).elim
  | _ => exact isWithin.elim

/-- The scopes of an application over two basic contexts answer alike what a body
without calls asks that refers to no parameter without an argument. -/
theorem answersAlike_scopeOf (wellFormed : world.forest.WellFormed)
    (plainArguments : ∀ argument ∈ arguments, argument.IsPlain)
    {first second : BasicContext Label}
    (plainTables : ∀ name value, first.references.find? name = some value →
      value.IsPlain)
    (alike : first.AlikeOutside (parameterNames parameters) second)
    {used : Reference → Prop}
    (filled : ∀ name, used name → name ∈ parameterNames parameters →
      name ∈ filledNames parameters arguments) :
    world.AnswersAlike (scopeOf (.basic first) parameters arguments)
      (scopeOf (.basic second) parameters arguments)
      (Question.RefersWithin world.forest used) where
  settings :=
    { kind := congrArg ContextConfig.kind alike.config
      math := congrArg ContextConfig.math alike.config
      isFit := fun _ _ => trivial
      convert := fun value target _ => by
        simp only [Context.convert, Context.kind, scopeOf, Context.bind,
          Context.tables, alike.config, alike.converter]
      converted := fun _ _ _ _ _ => trivial
      write := fun _ _ => rfl
      order := fun _ _ _ _ => rfl }
  closed := closed_refersWithin wellFormed
    (isPlain_of_resolve_scopeOf plainArguments plainTables)
  reference {name} isUsed := by
    -- Either both scopes bind the name to one value, or both tables hold one.
    by_cases isFilled : name ∈ filledNames parameters arguments
    · obtain ⟨value, -, same⟩ := reference_filled plainArguments isFilled
      rw [same, same]
    · have outside : name ∉ parameterNames parameters :=
        fun isParameter => isFilled (filled name isUsed isParameter)
      rw [reference_unfilled _ isFilled, reference_unfilled _ isFilled]
      exact congrArg Except.ok (alike.references name outside)
  function := False.elim
  rule {value} _ := by
    cases value <;> simp only [ruleFor, scopeOf, Context.bind,
      Context.truthiness?, alike.truthiness]
  apply := False.elim

/-- A lambda whose body makes no calls and refers to no parameter without an
argument does the same in basic contexts that differ under the names of its
parameters only. -/
theorem apply_lambda_filled (wellFormed : world.forest.WellFormed)
    (plainArguments : ∀ argument ∈ arguments, argument.IsPlain)
    {first second : BasicContext Label}
    (plainTables : ∀ name value, first.references.find? name = some value →
      value.IsPlain)
    (alike : first.AlikeOutside (parameterNames parameters) second)
    {body : Expression}
    (filled : (world.forest.tree body).All (Shape.RefersWithin fun name =>
      name ∈ parameterNames parameters → name ∈ filledNames parameters arguments))
    (steps : Nat) :
    (world.machine steps (.basic first)).apply (.lambda parameters body)
        arguments =
      (world.machine steps (.basic second)).apply (.lambda parameters body)
        arguments := by
  cases steps with
  | zero => rfl
  | succ steps =>
      have answers := answersAlike_scopeOf wellFormed plainArguments plainTables
        alike fun _ isFilled => isFilled
      have bodies := answers.evaluate steps filled
      simp only [machine, applyCallable]
      exact congrArg _ (funext fun _ => bodies)

end Filled

end World

/-- A caller has built three references, and the conjunction of two of them. -/
def Session.conjunction : Session :=
  start
    |>.operate (.build 0 (.reference ⟨"x"⟩))
    |>.operate (.build 0 (.reference ⟨"y"⟩))
    |>.operate (.build 0 (.reference ⟨"z"⟩))
    |>.operate (.build 0 (.binary .and (.atRoot 0 ⟨0⟩) (.atRoot 0 ⟨2⟩)))

theorem Session.reachable_conjunction : conjunction.Reachable := by
  unfold conjunction
  refine .move (.move (.move (.move .start (.operate _ ?_)) (.operate _ ?_))
    (.operate _ ?_)) (.operate _ ?_)
  all_goals decide +kernel

/-- A parameter that takes an argument, and one whose argument may be left out. -/
def optionalParameters : List Parameter :=
  [⟨⟨"x"⟩, .any, .required, {}⟩, ⟨⟨"y"⟩, .any, .optional, {}⟩]

/-- Tables that hold truth values under three names. -/
def truthTables (x y z : Bool) : BasicContext Routine where
  references := .ofList
    [(⟨"x"⟩, .bool x), (⟨"y"⟩, .bool y), (⟨"z"⟩, .bool z)]

theorem isPlain_truthTables {x y z : Bool} {name : Reference}
    {value : Value Routine}
    (found : (truthTables x y z).references.find? name = some value) :
    value.IsPlain := by
  have member := Table.mem_of_find?_ofList found
  simp only [List.mem_cons, Prod.mk.injEq, List.not_mem_nil, or_false] at member
  rcases member with ⟨-, rfl⟩ | ⟨-, rfl⟩ | ⟨-, rfl⟩ <;>
    simp [Value.IsPlain, Value.type]

theorem alikeOutside_truthTables (x y otherX otherY z : Bool) :
    (truthTables x y z).AlikeOutside (parameterNames optionalParameters)
      (truthTables otherX otherY z) where
  config := rfl
  converter := rfl
  truthiness := rfl
  references name outside := by
    have isNeither : ¬ (⟨"x"⟩ : Reference) = name ∧ ¬ (⟨"y"⟩ : Reference) = name := by
      simpa [parameterNames, optionalParameters, ParameterName.toReference,
        eq_comm] using outside
    simp [truthTables, Table.find?_ofList, List.find?_cons, isNeither]

theorem apply_lambda_filled_conjunction :
    let world : World Routine := ⟨Session.conjunction.forest, Routine.host⟩
    let lambda : Callable Routine :=
      .lambda optionalParameters (.atRoot 0 ⟨3⟩)
    (world.machine 4 (.basic (truthTables false false true))).apply lambda
        [.bool true] =
      (world.machine 4 (.basic (truthTables true true true))).apply lambda
        [.bool true] := by
  intro world lambda
  have wellFormed : world.forest.WellFormed :=
    Session.reachable_conjunction.valid.wellFormed
  have tree : world.forest.tree (.atRoot 0 ⟨3⟩) =
      .node (.binary .and) [.node (.reference ⟨"x"⟩) [],
        .node (.reference ⟨"z"⟩) []] := rfl
  refine World.apply_lambda_filled wellFormed (by simp [Value.IsPlain, Value.type])
    (fun _ _ => isPlain_truthTables) (alikeOutside_truthTables ..) ?_ 4
  rw [tree]
  simp [Tree.all_node, Shape.RefersWithin, World.filledNames, parameterNames,
    optionalParameters, ParameterName.toReference]

/-- A parameter without an argument shows what the calling context holds under its
name. -/
theorem unfilled_parameter_shows :
    let world : World Routine := ⟨Session.conjunction.forest, Routine.host⟩
    let lambda : Callable Routine :=
      .lambda optionalParameters (.atRoot 0 ⟨1⟩)
    (truthTables true true true).AlikeOutside (parameterNames optionalParameters)
        (truthTables true false true) ∧
      lambda.checkCount 1 = .ok () ∧
      ((world.machine 3 (.basic (truthTables true true true))).apply lambda
        [.bool true]).outcome = .value (.bool true) ∧
      ((world.machine 3 (.basic (truthTables true false true))).apply lambda
        [.bool true]).outcome = .value (.bool false) :=
  ⟨alikeOutside_truthTables .., rfl, rfl, rfl⟩

/-! ### Functions under the names of parameters -/

/-- What a bound name stands for can be called by the name, unless the name is
bound to a reference to a function.  Then the parent has to have the same function
under the name itself. -/
theorem Context.bound_function_callable_iff (parent : Context Label)
    {bindings : Table Reference (Value Label)} {name : FunctionName}
    {bound : Value Label} (isBound : bindings.find? name.toReference = some bound) :
    (∀ tag callable,
        (Context.scope parent bindings).reference name.toReference =
          .ok (some (.function tag callable)) →
        (Context.scope parent bindings).function name = .ok callable) ↔
      ∀ outer tag callable, bound = .reference outer →
        parent.reference outer = .ok (some (.function tag callable)) →
          parent.function name = .ok callable := by
  simp only [Context.reference, Context.function, isBound]
  cases bound with
  | reference outer =>
      refine ⟨fun agree => ?_, fun parentHas tag callable =>
        parentHas outer tag callable rfl⟩
      rintro _ tag callable ⟨rfl⟩
      exact agree tag callable
  | function tag callable =>
      refine ⟨fun _ => nofun, ?_⟩
      rintro - _ _ ⟨⟩
      rfl
  | _ => exact ⟨fun _ => nofun, fun _ => nofun⟩

/-- Tables that hold a function under a name and another in the registry. -/
def functionTables : BasicContext Routine where
  functions := .ofList [(⟨"g"⟩, .startsWith)]
  references := .ofList [(⟨"h"⟩, .function none .constantFalse)]

theorem bound_function_callable_direct :
    let bindings : Table Reference (Value Routine) :=
      .ofList [(⟨"g"⟩, .function none .constantFalse)]
    (Context.scope (.basic functionTables) bindings).function ⟨"g"⟩ =
      .ok .constantFalse := by
  intro bindings
  have isBound : bindings.find? (⟨"g"⟩ : FunctionName).toReference =
      some (.function none .constantFalse) := rfl
  exact (Context.bound_function_callable_iff (.basic functionTables) isBound).mpr
    nofun none .constantFalse rfl

/-- A parameter that is bound to a reference to a function calls another one. -/
theorem bound_reference_calls_other :
    let scope : Context Routine := .scope (.basic functionTables)
      (.ofList [(⟨"g"⟩, .reference ⟨"h"⟩)])
    scope.reference ⟨"g"⟩ = .ok (some (.function none .constantFalse)) ∧
      scope.function ⟨"g"⟩ = .ok .startsWith :=
  ⟨rfl, rfl⟩

end FormulaEngine
