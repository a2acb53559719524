import FormulaEngine.Evaluation.Argument
import FormulaEngine.Proofs.Evaluation.Operation

/-!
# What the preparation of arguments depends on

Two contexts convert alike when they make the same of the values that come up in
an evaluation.  Then their operators agree, and so do the arguments that they
prepare: an argument list is prepared argument by argument, each for a parameter
of the function, and converting an argument has two parts.  A reference is
resolved where the parameter takes none, and the value is made to fit the type.
-/

namespace FormulaEngine

variable {Label : Type}

theorem mem_of_parameterAt? {parameters : List Parameter} {index : Nat}
    {parameter : Parameter}
    (found : parameterAt? parameters index = some parameter) :
    parameter ∈ parameters := by
  unfold parameterAt? at found
  split at found
  · cases found
    exact List.mem_of_getElem? ‹_›
  · exact List.mem_of_getLast? (Option.filter_eq_some_iff.mp found).1

namespace Context

/-- The text that a value is written as once it has been converted. -/
def textOf (context : Context Label) (forest : Forest) (value : Value Label) :
    Except EvalError String :=
  (context.convert forest value .text).map (·.write forest)

theorem concatenate_eq (context : Context Label) (forest : Forest)
    (left right : Value Label) :
    context.concatenate forest left right =
      context.textOf forest left >>= fun leftText =>
        context.textOf forest right >>= fun rightText =>
          .ok (.text (leftText ++ rightText)) := by
  simp only [concatenate, textOf]
  cases context.convert forest left .text with
  | error error => rfl
  | ok leftText => cases context.convert forest right .text <;> rfl

end Context

/-- Two contexts, each in its forest, make the same of values.  Good values are
the ones that come up in an evaluation; what they convert to is fit to be written
and to be passed to a function. -/
structure ConvertAlike (good fit : Value Label → Prop) (forest : Forest)
    (context : Context Label) (otherForest : Forest) (other : Context Label) :
    Prop where
  kind : context.kind = other.kind
  math : context.math = other.math
  isFit : ∀ value, good value → fit value
  convert : ∀ value target, good value →
    context.convert forest value target = other.convert otherForest value target
  converted : ∀ value target result, good value →
    context.convert forest value target = .ok result → fit result
  write : ∀ value, fit value → value.write forest = value.write otherForest
  order : ∀ left right, good left → good right →
    context.order? forest left right = other.order? otherForest left right

namespace ConvertAlike

variable {stops : Run.Stops} {good fit : Value Label → Prop}
  {forest otherForest : Forest} {context other : Context Label}
  {machine otherMachine : Machine Label}

theorem refl (always : ∀ value, fit value) (forest : Forest)
    (context : Context Label) :
    ConvertAlike good fit forest context forest context where
  kind := rfl
  math := rfl
  isFit value _ := always value
  convert _ _ _ := rfl
  converted _ _ result _ _ := always result
  write _ _ := rfl
  order _ _ _ _ := rfl

theorem textOf (alike : ConvertAlike good fit forest context otherForest other)
    {value : Value Label} (isGood : good value) :
    context.textOf forest value = other.textOf otherForest value := by
  have converted := alike.converted value .text
  rw [Context.textOf, Context.textOf, ← alike.convert value .text isGood]
  cases found : context.convert forest value .text with
  | error error => rfl
  | ok text =>
      exact congrArg Except.ok (alike.write text (converted text isGood found))

theorem concatenate
    (alike : ConvertAlike good fit forest context otherForest other)
    {left right : Value Label} (isLeft : good left) (isRight : good right) :
    context.concatenate forest left right =
      other.concatenate otherForest left right := by
  rw [Context.concatenate_eq, Context.concatenate_eq, alike.textOf isLeft,
    alike.textOf isRight]

/-- Contexts that convert and judge alike operate alike. -/
theorem operate (alike : ConvertAlike good fit forest context otherForest other)
    (judge : ∀ value, good value → (machine.judge value).Agrees stops
      (fun _ => True) (otherMachine.judge value)) :
    OperateAlike stops good forest context machine otherForest other
      otherMachine where
  kind := alike.kind
  math := alike.math
  concatenate _ _ := alike.concatenate
  order := alike.order
  judge := judge

end ConvertAlike

/-- A name stands for the same in two contexts, and what it stands for has a
property. -/
structure ResolveAlike (good : Value Label → Prop)
    (context other : Context Label) (name : Reference) : Prop where
  same : context.resolve name = other.resolve name
  isGood : ∀ value, context.resolve name = .ok value → good value

namespace Context

/-- Resolve a reference where a parameter takes none. -/
def dereference (context : Context Label) (parameter : Parameter)
    (value : Value Label) : Except EvalError (Value Label) :=
  match value with
  | .reference name =>
      if parameter.type.takesReference then .ok value
      else context.resolve name
  | _ => .ok value

/-- Make a value fit the type of a parameter. -/
def fitArgument (context : Context Label) (forest : Forest)
    (function : String) (parameter : Parameter) (value : Value Label) :
    Except EvalError (Value Label) :=
  if parameter.type = .any ∨ value.type = parameter.type then .ok value
  else
    (context.convert forest value parameter.type).mapError fun _ =>
      .of (.parameterType function parameter.name.text (value.write forest)
        parameter.type)

theorem convertArgument_eq (context : Context Label) (forest : Forest)
    (function : String) (parameter : Parameter) (value : Value Label) :
    context.convertArgument forest function parameter value =
      context.dereference parameter value >>=
        context.fitArgument forest function parameter := by
  cases value with
  | reference name =>
      simp only [convertArgument, dereference]
      split <;> rfl
  | _ => rfl

/-- A value can be converted for a parameter: either it is good as it is, or it
is a reference that has to be resolved. -/
inductive Takes (good : Value Label → Prop) (parameter : Parameter) :
    Value Label → Prop
  | good {value : Value Label} (isGood : good value) : Takes good parameter value
  | reference {name : Reference}
      (resolved : parameter.type.takesReference = false) :
      Takes good parameter (.reference name)

section Agreement

variable {stops : Run.Stops} {good fit : Value Label → Prop}
  {forest otherForest : Forest} {context other : Context Label}
  {machine otherMachine : Machine Label} {callable : Callable Label}
  {parameter : Parameter} {value : Value Label}

theorem dereference_alike (takes : Takes good parameter value)
    (resolves : ∀ name, value = .reference name →
      ResolveAlike good context other name) :
    context.dereference parameter value = other.dereference parameter value ∧
      ∀ result, context.dereference parameter value = .ok result →
        good result := by
  cases value with
  | reference name =>
      have alike := resolves name rfl
      simp only [dereference]
      cases takesReference : parameter.type.takesReference with
      | false => simpa using ⟨alike.same, alike.isGood⟩
      | true =>
          refine ⟨rfl, ?_⟩
          rintro result ⟨rfl⟩
          cases takes with
          | good isGood => exact isGood
          | reference resolved => simp [takesReference] at resolved
  | _ =>
      refine ⟨rfl, ?_⟩
      rintro result ⟨rfl⟩
      cases takes with
      | good isGood => exact isGood

theorem fitArgument_alike
    (alike : ConvertAlike good fit forest context otherForest other)
    (function : String) (isGood : good value) :
    context.fitArgument forest function parameter value =
        other.fitArgument otherForest function parameter value ∧
      ∀ result, context.fitArgument forest function parameter value =
        .ok result → fit result := by
  simp only [fitArgument]
  split
  · refine ⟨rfl, ?_⟩
    rintro result ⟨rfl⟩
    exact alike.isFit value isGood
  · rw [← alike.convert value parameter.type isGood,
      alike.write value (alike.isFit value isGood)]
    exact ⟨rfl, fun result succeeds =>
      alike.converted value parameter.type result isGood
        (Attempt.of_mapError succeeds)⟩

/-- Arguments are converted alike where contexts convert and resolve alike. -/
theorem convertArgument_alike
    (alike : ConvertAlike good fit forest context otherForest other)
    (function : String) (takes : Takes good parameter value)
    (resolves : ∀ name, value = .reference name →
      ResolveAlike good context other name) :
    context.convertArgument forest function parameter value =
        other.convertArgument otherForest function parameter value ∧
      ∀ result, context.convertArgument forest function parameter value =
        .ok result → fit result := by
  obtain ⟨same, dereferenced⟩ := dereference_alike takes resolves
  rw [convertArgument_eq, convertArgument_eq, ← same]
  cases found : context.dereference parameter value with
  | error error => simp
  | ok between =>
      simp only [Attempt.ok_bind]
      exact fitArgument_alike alike function (dereferenced between found)

/-- Arguments are prepared alike if they are bare references of one name, or if
their values agree. -/
theorem prepareArgument_agrees
    (alike : ConvertAlike good fit forest context otherForest other)
    (function : String) {argument image : Expression}
    (sameName : forest.referenceName? argument =
      otherForest.referenceName? image)
    (bare : ∀ name, forest.referenceName? argument = some name →
      Takes good parameter (.reference name) ∧
        ResolveAlike good context other name)
    (resolves : ∀ name, good (.reference name) →
      ResolveAlike good context other name)
    (unevaluated : parameter.flags.unevaluated = true →
      argument = image ∧ fit (.expression argument))
    (evaluates : (machine.evaluate argument).Agrees stops good
      (otherMachine.evaluate image)) :
    (context.prepareArgument forest machine function parameter
      argument).Agrees stops fit
      (other.prepareArgument otherForest otherMachine function parameter
        image) := by
  have finish (value : Value Label) (takes : Takes good parameter value)
      (resolves : ∀ name, value = .reference name →
        ResolveAlike good context other name) :
      (.ofExcept (context.convertArgument forest function parameter value) :
        Run Label (Value Label)).Agrees stops fit
        (.ofExcept
          (other.convertArgument otherForest function parameter value)) := by
    obtain ⟨same, isFit⟩ := convertArgument_alike alike function takes resolves
    exact Run.agrees_ofExcept same isFit
  have finishGood (value : Value Label) (isGood : good value) :=
    finish value (.good isGood) fun name same => resolves name (same ▸ isGood)
  have passes (asked : parameter.flags.unevaluated = true) :
      (pure (.expression argument) : Run Label (Value Label)).Agrees stops fit
        (pure (.expression image)) := by
    obtain ⟨rfl, isFit⟩ := unevaluated asked
    exact Run.agrees_pure isFit
  -- Bare references are never evaluated, so they have to be of one name.
  simp only [prepareArgument, ← sameName]
  cases named : forest.referenceName? argument with
  | some name =>
      obtain ⟨takes, resolve⟩ := bare name named
      simp only
      split
      · exact (Run.agrees_ofExcept resolve.same resolve.isGood).bind finishGood
      · split
        next asked => exact passes asked
        next =>
          refine finish _ takes ?_
          rintro other ⟨rfl⟩
          exact resolve
  | none =>
      simp only
      split
      next asked => exact passes asked
      next => exact evaluates.bind finishGood

/-- Prepared arguments agree when they do argument by argument. -/
theorem prepare_agrees {related : Expression → Expression → Prop}
    {arguments others : List Expression}
    (below : List.Forall₂ related arguments others)
    (prepared : ∀ parameter ∈ callable.core.parameters, ∀ argument image,
      related argument image →
        (context.prepareArgument forest machine callable.core.displayName
          parameter argument).Agrees stops good
        (other.prepareArgument otherForest otherMachine
          callable.core.displayName parameter image))
    (evaluated : ∀ argument image, related argument image →
      (machine.evaluate argument).Agrees stops good
        (otherMachine.evaluate image)) :
    (context.prepare forest machine callable arguments).Agrees stops
      (fun values => ∀ value ∈ values, good value)
      (other.prepare otherForest otherMachine callable others) := by
  apply Run.agrees_forEach
  rw [List.forall₂_iff_get] at below ⊢
  refine ⟨by simpa using below.1, fun index bound otherBound => ?_⟩
  have isRelated := below.2 index (by simpa using bound) (by simpa using otherBound)
  simp only [List.get_eq_getElem, List.getElem_mapIdx] at isRelated ⊢
  cases found : parameterAt? callable.core.parameters index with
  | some parameter =>
      exact prepared parameter (mem_of_parameterAt? found) _ _ isRelated
  | none => exact evaluated _ _ isRelated

end Agreement

end Context

end FormulaEngine
