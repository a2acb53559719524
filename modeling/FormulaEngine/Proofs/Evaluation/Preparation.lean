import FormulaEngine.Proofs.Evaluation.Node
import FormulaEngine.Proofs.Expression.Session

/-!
# What arguments are prepared to

An argument count that is accepted leaves no argument without a parameter.  Then
every argument is prepared by itself: it is passed on as the expression that it
is, or it is given a value, which is made to fit the declared type.  With the
basic converter the values that a function receives are of the types that it has
declared.
-/

namespace FormulaEngine

variable {Label : Type}

/-! ### The parameter of an argument -/

/-- A parameter receives the argument at an index: it stands at the index, or it
is the variable one at the end of a list that is too short for the index. -/
def ReceivesAt (parameters : List Parameter) (index : Nat)
    (parameter : Parameter) : Prop :=
  parameters[index]? = some parameter ∨
    parameters.length ≤ index ∧ parameters.getLast? = some parameter ∧
      parameter.cardinality = .variadic

theorem parameterAt?_eq_some_iff {parameters : List Parameter} {index : Nat}
    {parameter : Parameter} :
    parameterAt? parameters index = some parameter ↔
      ReceivesAt parameters index parameter := by
  unfold parameterAt? ReceivesAt
  cases standing : parameters[index]? with
  | some found =>
      have within : index < parameters.length :=
        (List.getElem?_eq_some_iff.mp standing).1
      simp only [Option.some.injEq]
      constructor
      · exact Or.inl
      · rintro (same | ⟨beyond, -⟩)
        · exact same
        · omega
  | none =>
      have beyond : parameters.length ≤ index := List.getElem?_eq_none_iff.mp standing
      simp [Option.filter_eq_some_iff, Parameter.isVariadic, beyond]

/-- A list with a variable parameter ends with it. -/
theorem Arity.isVariadic_of_getLast? {parameters : List Parameter} {arity : Arity}
    (isArity : Arity.of parameters = .ok arity)
    (variadic : parameters.any Parameter.isVariadic = true) :
    ∃ last, parameters.getLast? = some last ∧ last.cardinality = .variadic := by
  unfold Arity.of at isArity
  split at isArity
  · cases isArity
  next noneEarlier =>
    obtain ⟨parameter, member, isVariadic⟩ := List.any_eq_true.mp variadic
    have nonempty : parameters ≠ [] := List.ne_nil_of_mem member
    refine ⟨parameters.getLast nonempty, List.getLast?_eq_some_getLast nonempty, ?_⟩
    rw [← List.dropLast_append_getLast nonempty] at member
    rcases List.mem_append.mp member with earlier | last
    · exact absurd isVariadic (List.find?_eq_none.mp noneEarlier parameter earlier)
    · obtain rfl := List.mem_singleton.mp last
      simpa [Parameter.isVariadic] using isVariadic

/-- There is a parameter for every argument of an accepted count. -/
theorem Arity.exists_receivesAt {parameters : List Parameter} {arity : Arity}
    (isArity : Arity.of parameters = .ok arity) {count index : Nat}
    (accepted : arity.accepts count = true) (bound : index < count) :
    ∃ parameter, ReceivesAt parameters index parameter := by
  rcases Nat.lt_or_ge index parameters.length with within | beyond
  · exact ⟨parameters[index], .inl (List.getElem?_eq_getElem within)⟩
  · cases variadic : parameters.any Parameter.isVariadic with
    | true =>
        obtain ⟨last, isLast, isVariadic⟩ := isVariadic_of_getLast? isArity variadic
        exact ⟨last, .inr ⟨beyond, isLast, isVariadic⟩⟩
    | false =>
        -- Without a variable parameter there are at most as many arguments.
        unfold Arity.of at isArity
        split at isArity
        · cases isArity
        next =>
          cases isArity
          simp [accepts, variadic] at accepted
          omega

namespace Callable

theorem parameters_core :
    ∀ callable : Callable Label, callable.core.parameters = callable.parameters
  | .constantFalse | .startsWith | .lambda _ _ | .host _ _ => rfl
  | .named _ inner => parameters_core inner
  | .mapped _ inner => parameters_core inner
  | .filtered _ inner => parameters_core inner

theorem checkCount_eq_ok {callable : Callable Label} {count : Nat}
    (accepted : callable.checkCount count = .ok ()) :
    ∃ arity, Arity.of callable.parameters = .ok arity ∧
      arity.accepts count = true := by
  unfold checkCount at accepted
  cases isArity : Arity.of callable.parameters with
  | error misplaced => simp [isArity] at accepted
  | ok arity =>
      refine ⟨arity, rfl, ?_⟩
      by_contra refused
      simp [isArity, refused] at accepted

end Callable

/-! ### One argument -/

/-- An argument is passed on to a parameter as the expression that it is, rather
than its value. -/
def Parameter.passesOn (parameter : Parameter) (forest : Forest)
    (argument : Expression) : Bool :=
  parameter.flags.unevaluated &&
    !((forest.referenceName? argument).isSome &&
      parameter.flags.resolvesReferences)

/-- The report of a value that does not fit the type of a parameter. -/
def Parameter.misfit (parameter : Parameter) (forest : Forest) (function : String)
    (value : Value Label) : EvalError :=
  .of (.parameterType function parameter.name.text (value.write forest)
    parameter.type)

/-- A value conforms to what a parameter declares about an argument. -/
def Parameter.Admits (parameter : Parameter) (forest : Forest)
    (argument : Expression) (value : Value Label) : Prop :=
  if parameter.passesOn forest argument then value = .expression argument
  else parameter.type = .any ∨ value.type = parameter.type

namespace Context

variable {context : Context Label} {forest : Forest} {machine : Machine Label}

/-- The value that an argument is given before it is made to fit a type.  A bare
reference is given what it names, or else itself where the parameter takes
references. -/
def argumentValue (context : Context Label) (forest : Forest)
    (machine : Machine Label) (parameter : Parameter) (argument : Expression) :
    Run Label (Value Label) := do
  let source ←
    match forest.referenceName? argument with
    | some name =>
        if parameter.flags.resolvesReferences then
          Run.ofExcept (context.resolve name)
        else pure (.reference name)
    | none => machine.evaluate argument
  .ofExcept (context.dereference parameter source)

theorem prepareArgument_eq (context : Context Label) (forest : Forest)
    (machine : Machine Label) (function : String) (parameter : Parameter)
    (argument : Expression) :
    context.prepareArgument forest machine function parameter argument =
      if parameter.passesOn forest argument then pure (.expression argument)
      else
        context.argumentValue forest machine parameter argument >>= fun value =>
          .ofExcept (context.fitArgument forest function parameter value) := by
  have finish (value : Value Label) :
      (.ofExcept (context.convertArgument forest function parameter value) :
        Run Label (Value Label)) =
        .ofExcept (context.dereference parameter value) >>= fun between =>
          .ofExcept (context.fitArgument forest function parameter between) := by
    rw [convertArgument_eq, Run.ofExcept_bind]
  simp only [prepareArgument, argumentValue, finish, Parameter.passesOn]
  cases forest.referenceName? argument with
  | some name =>
      cases parameter.flags.resolvesReferences <;>
        cases parameter.flags.unevaluated <;> simp
  | none => cases parameter.flags.unevaluated <;> simp

/-- With the basic converter a value that has been made to fit is of the declared
type. -/
theorem type_of_fitArgument (converter : context.tables.converter = .basic)
    {function : String} {parameter : Parameter} {value result : Value Label}
    (fits : context.fitArgument forest function parameter value = .ok result) :
    parameter.type = .any ∨ result.type = parameter.type := by
  unfold fitArgument at fits
  split at fits
  next already =>
    cases fits
    exact already
  next =>
    have converts := Attempt.of_mapError fits
    simp only [convert, converter, Converter.basic] at converts
    split at converts
    next converted isConverted =>
      cases converts
      exact Value.type_of_convert? isConverted
    next => cases converts

theorem ensures_prepareArgument (converter : context.tables.converter = .basic)
    (function : String) (parameter : Parameter) (argument : Expression) :
    (context.prepareArgument forest machine function parameter argument).Ensures
      (parameter.Admits forest argument) := by
  rw [prepareArgument_eq]
  split
  next passesOn =>
    apply Run.ensures_pure
    simp [Parameter.Admits, passesOn]
  next isValue =>
    refine (Run.ensures_trivially _).bind fun value _ => ?_
    refine Run.ensures_ofExcept fun result fits => ?_
    simpa [Parameter.Admits, isValue] using type_of_fitArgument converter fits

/-! ### All arguments -/

/-- Arguments are prepared one by one, each for the parameter that receives it. -/
theorem ensures_prepare (context : Context Label) (forest : Forest)
    (machine : Machine Label) (callable : Callable Label)
    (arguments : List Expression) :
    (context.prepare forest machine callable arguments).Ensures fun values =>
      values.length = arguments.length ∧
        ∀ index argument value parameter, arguments[index]? = some argument →
          values[index]? = some value →
          ReceivesAt callable.parameters index parameter →
            (context.prepareArgument forest machine callable.core.displayName
              parameter argument).outcome = .value value := by
  unfold prepare
  intro values ends
  have each := Run.ensures_forEach (fun _ _ _ same => same) values ends
  rw [List.forall₂_iff_get] at each
  obtain ⟨sameLength, each⟩ := each
  refine ⟨by simpa using sameLength.symm, ?_⟩
  intro index argument value parameter isArgument isValue receives
  obtain ⟨bound, rfl⟩ := List.getElem?_eq_some_iff.mp isArgument
  obtain ⟨valueBound, rfl⟩ := List.getElem?_eq_some_iff.mp isValue
  have prepared := each index (by simpa using bound) valueBound
  have found := parameterAt?_eq_some_iff.mpr receives
  simpa [Callable.parameters_core, found] using prepared

/-- With the basic converter a function receives what it has declared: there is a
parameter for every argument of an accepted count, and preparation yields one
value for each argument, in order, that conforms to the parameter. -/
theorem prepare_conforms (context : Context Label)
    (converter : context.tables.converter = .basic) (forest : Forest)
    (machine : Machine Label) {callable : Callable Label}
    {arguments : List Expression}
    (accepted : callable.checkCount arguments.length = .ok ()) :
    (∀ index < arguments.length, ∃ parameter,
        ReceivesAt callable.parameters index parameter) ∧
      (context.prepare forest machine callable arguments).Ensures fun values =>
        values.length = arguments.length ∧
          ∀ index argument value parameter, arguments[index]? = some argument →
            values[index]? = some value →
            ReceivesAt callable.parameters index parameter →
              parameter.Admits forest argument value := by
  constructor
  · intro index bound
    obtain ⟨arity, isArity, accepts⟩ := Callable.checkCount_eq_ok accepted
    exact Arity.exists_receivesAt isArity accepts bound
  · refine (ensures_prepare context forest machine callable arguments).imp ?_
    rintro values ⟨sameLength, prepared⟩
    refine ⟨sameLength, ?_⟩
    intro index argument value parameter isArgument isValue receives
    have ends := prepared index argument value parameter isArgument isValue receives
    exact ensures_prepareArgument converter _ parameter argument value ends

end Context

/-- A caller has built a truth value and a reference. -/
def Session.truthAndReference : Session :=
  start
    |>.operate (.build 0 (.value (.bool true)))
    |>.operate (.build 0 (.reference ⟨"x"⟩))

/-- Any number of texts, for which references are resolved. -/
def restParameter : Parameter :=
  ⟨⟨"rest"⟩, .text, .variadic, { resolvesReferences := true }⟩

/-- Parameters that take an integer, an expression as it is, and any number of
texts. -/
def mixedParameters : List Parameter :=
  [⟨⟨"count"⟩, .integer, .required, {}⟩,
    ⟨⟨"raw"⟩, .any, .required, { unevaluated := true }⟩, restParameter]

theorem prepare_conforms_mixed :
    let forest := Session.truthAndReference.forest
    let world : World Unit := ⟨forest, .answering fun _ => .ok (.bool true)⟩
    let context : Context Unit :=
      .basic { references := .ofList [(⟨"x"⟩, .bool false)] }
    let callable : Callable Unit :=
      .named ⟨"list"⟩ (.host ⟨⟨"collect"⟩, mixedParameters, .any, true⟩ ())
    let name : Expression := .atRoot 0 ⟨1⟩
    let arguments := [.atRoot 0 ⟨0⟩, name, name, name]
    let values : List (Value Unit) :=
      [.integer 1, .expression name, .text "false", .text "false"]
    callable.checkCount arguments.length = .ok () ∧
      (context.prepare forest (world.machine 1 context) callable
        arguments).outcome = .value values ∧
      (∀ index < arguments.length, ∃ parameter,
        ReceivesAt callable.parameters index parameter) ∧
      restParameter.Admits forest name (.text "false" : Value Unit) := by
  intro forest world context callable name arguments values
  have accepted : callable.checkCount arguments.length = .ok () := rfl
  have ends : (context.prepare forest (world.machine 1 context) callable
      arguments).outcome = .value values := rfl
  obtain ⟨received, conforms⟩ := Context.prepare_conforms context rfl forest
    (world.machine 1 context) accepted
  obtain ⟨-, admits⟩ := conforms values ends
  -- The last argument stands beyond the list of parameters.
  have receivesLast : ReceivesAt callable.parameters 3 restParameter :=
    .inr ⟨by decide, rfl, rfl⟩
  exact ⟨accepted, ends, received,
    admits 3 name (.text "false") restParameter rfl rfl receivesLast⟩

end FormulaEngine
