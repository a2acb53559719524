import FormulaEngine.Proofs.Evaluation.Preparation
import FormulaEngine.Proofs.Evaluation.ResultKind

/-!
# Arguments that are numbers

Numbers of either kind are of one type.  So a number of the other kind, which a
reference or a call may yield, is passed to a parameter that takes a number as it
is, where a conversion would give it the kind of the context.  Every other
argument becomes the number that it converts to, of the kind of the context.
-/

namespace FormulaEngine

variable {Label : Type}

/-! ### Values -/

/-- A value is a number, but not of a kind. -/
def Value.isForeign (kind : NumberKind) : Value Label → Bool
  | .number numeral => numeral.kind ≠ kind
  | _ => false

namespace Context

/-- A parameter that takes a number receives a number of the other kind as it is,
and anything else as it is converted. -/
inductive ReceivesNumber (context : Context Label) (forest : Forest)
    (given : Value Label) : Value Label → Prop
  | kept {numeral : Numeral} (isNumber : given = .number numeral)
      (otherKind : numeral.kind ≠ context.kind) :
      ReceivesNumber context forest given (.number numeral)
  | converted {numeral : Numeral} (own : given.isForeign context.kind = false)
      (converts : context.convert forest given .number = .ok (.number numeral))
      (ofKind : numeral.kind = context.kind) :
      ReceivesNumber context forest given (.number numeral)

variable {context : Context Label} {forest : Forest} {given value : Value Label}

/-- A parameter is given a number of the kind of the context if and only if the
argument was no number of the other kind. -/
theorem ReceivesNumber.ofKind_iff
    (receives : context.ReceivesNumber forest given value) :
    value.IsOfKind context.kind ↔ given.isForeign context.kind = false := by
  cases receives with
  | kept isNumber otherKind =>
      subst isNumber
      simp [Value.IsOfKind, Value.isForeign, otherKind]
  | converted own converts ofKind =>
      simp [Value.IsOfKind, own, ofKind]

theorem convert_number_own (converter : context.tables.converter = .basic)
    {numeral : Numeral} (ofKind : numeral.kind = context.kind) :
    context.convert forest (.number numeral) .number = .ok (.number numeral) := by
  simp only [convert, converter, Converter.basic, Value.convert?,
    Value.convertToNumber?, Numeral.setKind_of_kind ofKind]
  rfl

/-- To fit a parameter that takes a number is to be converted, but for numbers of
the other kind. -/
theorem fitArgument_number (converter : context.tables.converter = .basic)
    (forest : Forest) (function : String) {parameter : Parameter}
    (isNumber : parameter.type = .number) (given : Value Label) :
    context.fitArgument forest function parameter given =
      if given.isForeign context.kind then .ok given
      else
        (context.convert forest given .number).mapError fun _ =>
          parameter.misfit forest function given := by
  simp only [fitArgument, Parameter.misfit, isNumber]
  cases given with
  | number numeral =>
      by_cases ofKind : numeral.kind = context.kind
      · have own : (Value.number numeral : Value Label).isForeign context.kind =
            false := by simp [Value.isForeign, ofKind]
        rw [own, convert_number_own converter ofKind]
        rfl
      · have foreign : (Value.number numeral : Value Label).isForeign
            context.kind = true := by simp [Value.isForeign, ofKind]
        rw [foreign]
        rfl
  | _ => simp [Value.isForeign, Value.type]

theorem receivesNumber_of_fitArgument {world : World Label}
    (converter : context.tables.converter = .basic) {function : String}
    {parameter : Parameter} (isNumber : parameter.type = .number)
    (fits : context.fitArgument world.forest function parameter given =
      .ok value) :
    context.ReceivesNumber world.forest given value := by
  rw [fitArgument_number converter world.forest function isNumber] at fits
  split at fits
  next foreign =>
    cases fits
    cases given with
    | number numeral => exact .kept rfl (by simpa [Value.isForeign] using foreign)
    | _ => cases foreign
  next own =>
    have converts := Attempt.of_mapError fits
    obtain ⟨numeral, rfl, ofKind⟩ := World.kind_of_convert converter converts
    exact .converted (by simpa using own) converts ofKind

end Context

/-! ### Expressions -/

namespace World

variable {world : World Label} {context : Context Label}

/-- Literals and operators yield truth values, texts and numbers. -/
theorem ensures_isScalar {machine : Machine Label} {node : Node Expression}
    (computed : node.shape.IsComputed) :
    (world.evaluateNode context machine node).Ensures Value.IsScalar := by
  have itself := OperateAlike.itself world.forest context machine
  cases node with
  | value literal => exact Run.ensures_ofNumeric fun _ => isScalar_literal
  | unary op operand =>
      exact (Run.ensures_trivially _).bind fun value _ =>
        (itself.unary op trivial).ensures
  | binary op left right =>
      exact (Run.ensures_trivially _).bind fun leftValue _ =>
        (Run.ensures_trivially _).bind fun rightValue _ =>
          (itself.binary op trivial trivial).ensures
  | _ => exact computed.elim

/-- A literal or an operator gives no argument a number of the other kind. -/
theorem ensures_own (steps : Nat) (parameter : Parameter) {argument : Expression}
    (computed : (world.forest.shape argument).IsComputed) :
    (context.argumentValue world.forest (world.machine steps context) parameter
      argument).Ensures fun given => given.isForeign context.kind = false := by
  rw [← Forest.shape_node] at computed
  have noName : world.forest.referenceName? argument = none := by
    refine Option.eq_none_iff_forall_ne_some.mpr fun name named => ?_
    rw [Forest.referenceName?_eq_some_iff.mp named] at computed
    exact computed
  have evaluated : ((world.machine steps context).evaluate argument).Ensures
      fun source => source.IsScalar ∧ source.IsOfKind context.kind := by
    cases steps with
    | zero => exact nofun
    | succ steps =>
        intro source ends
        exact ⟨ensures_isScalar computed source ends,
          ensures_evaluateNode computed source ends⟩
  simp only [Context.argumentValue, noName]
  refine evaluated.bind ?_
  rintro source ⟨isScalar, ofKind⟩
  refine Run.ensures_ofExcept fun given dereferenced => ?_
  cases source with
  | number numeral =>
      cases dereferenced
      simpa [Value.isForeign, Value.IsOfKind] using ofKind
  | bool | text => cases dereferenced; rfl
  | _ => exact isScalar.elim

/-- What is prepared for a parameter that takes a number is the value of the
argument as it is converted, unless that is a number of the other kind, which is
kept.  Arguments that are literals or operators are prepared to numbers of the
kind of the context. -/
theorem prepare_number (world : World Label) (context : Context Label)
    (converter : context.tables.converter = .basic) (steps : Nat)
    (callable : Callable Label) (arguments : List Expression) :
    (context.prepare world.forest (world.machine steps context) callable
      arguments).Ensures fun values =>
        ∀ index argument value parameter, arguments[index]? = some argument →
          values[index]? = some value →
          ReceivesAt callable.parameters index parameter →
          parameter.type = .number → parameter.flags.unevaluated = false →
            ∃ given,
              (context.argumentValue world.forest (world.machine steps context)
                parameter argument).outcome = .value given ∧
              context.ReceivesNumber world.forest given value ∧
              ((world.forest.shape argument).IsComputed →
                value.IsOfKind context.kind) := by
  refine (Context.ensures_prepare context world.forest _ callable arguments).imp ?_
  rintro values ⟨-, prepared⟩
  intro index argument value parameter isArgument isValue receives isNumber
    evaluated
  have ends := prepared index argument value parameter isArgument isValue receives
  have isEvaluated : parameter.passesOn world.forest argument = false := by
    simp [Parameter.passesOn, evaluated]
  rw [Context.prepareArgument_eq, isEvaluated] at ends
  obtain ⟨given, isGiven, ends⟩ := Run.exists_of_outcome_bind ends
  have received := Context.receivesNumber_of_fitArgument converter isNumber
    (Run.ok_of_outcome_ofExcept ends)
  refine ⟨given, isGiven, received, fun computed => ?_⟩
  exact received.ofKind_iff.mpr (ensures_own steps parameter computed given isGiven)

end World

/-- Any number of numbers. -/
def numbersParameter : Parameter :=
  ⟨⟨"numbers"⟩, .number, .variadic, {}⟩

/-- Host code that collects any number of numbers. -/
def collectNumbers : Callable Unit :=
  .host ⟨⟨"collect"⟩, [numbersParameter], .any, true⟩ ()

theorem prepare_number_half :
    let world : World Unit :=
      ⟨Session.negatedSum.forest, .answering fun _ => .ok (.bool true)⟩
    let context := Context.basic mixedTables
    let machine := world.machine 4 context
    let half : Expression := .atRoot 0 ⟨1⟩
    let negated : Expression := .atRoot 0 ⟨3⟩
    let float : Value Unit := .number (.floating 0.5)
    let decimal : Value Unit := .number (.decimal ⟨-25, 1⟩)
    (context.prepare world.forest machine collectNumbers
        [half, negated]).outcome = .value [float, decimal] ∧
      (∃ given,
        (context.argumentValue world.forest machine numbersParameter
          half).outcome = .value given ∧
        context.ReceivesNumber world.forest given float) ∧
      decimal.IsOfKind .arbitraryPrecision := by
  intro world context machine half negated float decimal
  have ends : (context.prepare world.forest machine collectNumbers
      [half, negated]).outcome = .value [float, decimal] := rfl
  have prepared := World.prepare_number world context rfl 4 collectNumbers
    [half, negated] [float, decimal] ends
  have receivesFirst : ReceivesAt collectNumbers.parameters 0 numbersParameter :=
    .inl rfl
  have receivesNext : ReceivesAt collectNumbers.parameters 1 numbersParameter :=
    .inr ⟨by decide, rfl, rfl⟩
  obtain ⟨given, isGiven, received, -⟩ :=
    prepared 0 half float numbersParameter rfl rfl receivesFirst rfl rfl
  obtain ⟨other, isOther, otherReceived, ofKind⟩ :=
    prepared 1 negated decimal numbersParameter rfl rfl receivesNext rfl rfl
  exact ⟨ends, ⟨given, isGiven, received⟩, ofKind trivial⟩

/-- A float that is passed where decimals are in use stays a float, though it
converts to a decimal. -/
theorem number_argument_keeps_kind :
    let world : World Unit :=
      ⟨Session.negatedSum.forest, .answering fun _ => .ok (.bool true)⟩
    let context := Context.basic mixedTables
    let float : Value Unit := .number (.floating 0.5)
    (context.prepare world.forest (world.machine 1 context) collectNumbers
        [.atRoot 0 ⟨1⟩]).outcome = .value [float] ∧
      ¬ float.IsOfKind context.kind ∧
      context.convert world.forest float .number =
        .ok (.number (.decimal ⟨5, 1⟩)) :=
  ⟨rfl, nofun, rfl⟩

end FormulaEngine
