import FormulaEngine.Proofs.Evaluation.Preparation
import FormulaEngine.Proofs.Evaluation.ReferenceArgument
import FormulaEngine.Proofs.Evaluation.Substitution

/-!
# Bare references as arguments

A parameter that takes constants takes a bare reference for what its name stands
for, and any other argument for what it evaluates to.  These are the same for
plain values.  They part where the name leads on: a formula that it stands for is
not evaluated, and a further reference is followed only if the first one has been
resolved by a flag of the parameter.
-/

namespace FormulaEngine

variable {Label : Type}

namespace Context

variable {context : Context Label} {forest : Forest} {function : String}
  {parameter : Parameter}

/-- A reference or a formula that has no conversion is reported. -/
theorem fitArgument_refused (converter : context.tables.converter = .basic)
    (takes : parameter.TakesConstants) {value : Value Label}
    (leads : value.type.takesReference = true)
    (refused : value.convert? forest parameter.type context.kind = none) :
    context.fitArgument forest function parameter value =
      .error (parameter.misfit forest function value) := by
  have notAny : parameter.type ≠ .any := takes.ne_of_takesReference rfl
  have different : value.type ≠ parameter.type :=
    (takes.ne_of_takesReference leads).symm
  simp only [fitArgument, notAny, different, or_self, if_false, convert, converter,
    Converter.basic, refused]
  rfl

/-- A formula fits no parameter that takes constants. -/
theorem fitArgument_expression (converter : context.tables.converter = .basic)
    (takes : parameter.TakesConstants) (stored : Expression) :
    context.fitArgument forest function parameter (.expression stored) =
      .error (parameter.misfit forest function
        (.expression stored : Value Label)) := by
  apply fitArgument_refused converter takes rfl
  have isType := takes.2
  simp only [List.mem_cons, List.not_mem_nil, or_false] at isType
  rcases isType with isType | isType | isType | isType | isType <;>
    rw [isType] <;> rfl

/-- A reference fits a text, which becomes its name, and no other constant. -/
theorem fitArgument_reference (converter : context.tables.converter = .basic)
    (takes : parameter.TakesConstants) (further : Reference) :
    context.fitArgument forest function parameter (.reference further) =
      if parameter.type = .text then .ok (.text further.text)
      else .error (parameter.misfit forest function
        (.reference further : Value Label)) := by
  split
  next isText =>
    simp only [fitArgument, isText, convert, converter, Converter.basic]
    rfl
  next notText =>
    apply fitArgument_refused converter takes rfl
    have isType := takes.2
    simp only [List.mem_cons, List.not_mem_nil, or_false, notText, false_or]
      at isType
    rcases isType with isType | isType | isType | isType <;>
      rw [isType] <;> rfl

theorem convertArgument_eq_fitArgument {value : Value Label}
    (noReference : ∀ name, value ≠ .reference name) :
    context.convertArgument forest function parameter value =
      context.fitArgument forest function parameter value := by
  rw [convertArgument_eq]
  cases value with
  | reference name => exact (noReference name rfl).elim
  | _ => rfl

/-- An argument that a parameter takes for a constant is evaluated, followed if it
is a reference, and made to fit. -/
theorem prepareArgument_other (takes : parameter.TakesConstants)
    {machine : Machine Label} {other : Expression}
    (noName : forest.referenceName? other = none) :
    context.prepareArgument forest machine function parameter other =
      machine.evaluate other >>= fun source =>
        .ofExcept (context.convertArgument forest function parameter source) := by
  simp only [prepareArgument, noName, takes.1]
  rfl

/-- A bare reference is not evaluated.  It is resolved, and what it stands for is
followed only if the parameter resolves references. -/
theorem prepareArgument_bare (takes : parameter.TakesConstants)
    {machine : Machine Label} {bare : Expression} {name : Reference}
    (isName : forest.referenceName? bare = some name) :
    context.prepareArgument forest machine function parameter bare =
      .ofExcept (context.resolve name >>= fun found =>
        if parameter.flags.resolvesReferences then
          context.convertArgument forest function parameter found
        else context.fitArgument forest function parameter found) := by
  simp only [prepareArgument, isName, takes.1, Run.ofExcept_bind]
  cases parameter.flags.resolvesReferences with
  | true => rfl
  | false =>
      simp only [convertArgument_eq, dereference, takes.takesReference_eq,
        Run.ofExcept_bind]
      rfl

end Context

namespace World

variable {name : Reference}

theorem evaluate_bare {world : World Label} {context : Context Label}
    {bare : Expression} (isName : world.forest.referenceName? bare = some name)
    (noFormula : ∀ stored, context.resolve name ≠ .ok (.expression stored))
    (steps : Nat) :
    world.evaluate (steps + 1) context bare = .ofExcept (context.resolve name) := by
  have isReference := Forest.referenceName?_eq_some_iff.mp isName
  simp only [evaluate, machine, isReference, evaluateNode]
  cases resolved : context.resolve name with
  | error error => rfl
  | ok value =>
      cases value with
      | expression stored => exact (noFormula stored resolved).elim
      | _ => rfl

/-- What preparing a bare reference gives, compared with another expression that
evaluates alike.  It is the same, unless the name stands for a formula, which is
refused, or for a further reference that is not followed since the parameter does
not resolve references. -/
theorem bare_reference_prepared (world : World Label) (context : Context Label)
    (converter : context.tables.converter = .basic) (steps : Nat)
    (function : String) {parameter : Parameter} (takes : parameter.TakesConstants)
    {bare other : Expression}
    (isName : world.forest.referenceName? bare = some name)
    (noName : world.forest.referenceName? other = none)
    (finished : (world.evaluate steps context bare).outcome ≠ .cutOff)
    (same : (world.evaluate steps context other).outcome =
      (world.evaluate steps context bare).outcome) :
    let prepared := fun argument =>
      (context.prepareArgument world.forest (world.machine steps context) function
        parameter argument).outcome
    (∀ stored, context.resolve name = .ok (.expression stored) →
        prepared bare = .error (parameter.misfit world.forest function
          (.expression stored : Value Label))) ∧
      (∀ further, context.resolve name = .ok (.reference further) →
        parameter.flags.resolvesReferences = false →
          prepared bare =
            if parameter.type = .text then .value (.text further.text)
            else .error (parameter.misfit world.forest function
              (.reference further : Value Label))) ∧
      ((∀ stored, context.resolve name ≠ .ok (.expression stored)) →
        (parameter.flags.resolvesReferences = true ∨
          ∀ further, context.resolve name ≠ .ok (.reference further)) →
        prepared bare = prepared other) := by
  intro prepared
  have bareRun : prepared bare = _ :=
    congrArg Run.outcome (context.prepareArgument_bare takes isName)
  refine ⟨fun stored resolved => ?_, fun further resolved unflagged => ?_,
    fun noFormula followed => ?_⟩
  · rw [bareRun, resolved, Attempt.ok_bind,
      Context.convertArgument_eq_fitArgument (by simp), ite_self,
      Context.fitArgument_expression converter takes]
    rfl
  · rw [bareRun, resolved, Attempt.ok_bind, unflagged,
      if_neg Bool.false_ne_true, Context.fitArgument_reference converter takes]
    split <;> rfl
  · obtain ⟨fewer, rfl⟩ : ∃ fewer, steps = fewer + 1 := by
      cases steps with
      | zero => exact (finished rfl).elim
      | succ fewer => exact ⟨fewer, rfl⟩
    rw [evaluate_bare isName noFormula] at same
    have otherRun : prepared other = _ :=
      (congrArg Run.outcome (context.prepareArgument_other takes noName)).trans
        (Run.outcome_bind_congr same _)
    rw [bareRun, otherRun, ← Run.ofExcept_bind]
    cases resolved : context.resolve name with
    | error error => rfl
    | ok found =>
        rcases followed with flagged | noReference
        · rw [Attempt.ok_bind, Attempt.ok_bind, if_pos flagged]
        · rw [Attempt.ok_bind, Attempt.ok_bind,
            Context.convertArgument_eq_fitArgument, ite_self]
          rintro further rfl
          exact noReference further resolved

end World

/-- A caller has built references to a formula and to a further reference, the
formula, and a call of host code. -/
def Session.leadingNames : Session :=
  start
    |>.operate (.build 0 (.reference ⟨"formula"⟩))
    |>.operate (.build 0 (.reference ⟨"alias"⟩))
    |>.operate (.build 0 (.value (.bool true)))
    |>.operate (.build 0 (.call ⟨"find"⟩ []))

/-- Tables in which one name stands for a formula and one for a further
reference. -/
def leadingTables : BasicContext Unit where
  functions := .ofList [(⟨"find"⟩, .host ⟨⟨"find"⟩, [], .any, true⟩ ())]
  references := .ofList
    [(⟨"formula"⟩, .expression (.atRoot 0 ⟨2⟩)),
      (⟨"alias"⟩, .reference ⟨"flag"⟩), (⟨"flag"⟩, .bool true)]

/-- A world in which host code yields the further reference. -/
def leadingWorld : World Unit :=
  ⟨Session.leadingNames.forest, .answering fun _ => .ok (.reference ⟨"flag"⟩)⟩

/-- A truth value, for which references may be resolved. -/
def truthParameter (resolves : Bool) : Parameter :=
  ⟨⟨"truth"⟩, .bool, .required, { resolvesReferences := resolves }⟩

/-- What an expression is prepared to for a truth value. -/
def preparedTruth (resolves : Bool) (argument : Expression) :
    Outcome (Value Unit) :=
  ((Context.basic leadingTables).prepareArgument leadingWorld.forest
    (leadingWorld.machine 2 (.basic leadingTables)) "check"
    (truthParameter resolves) argument).outcome

theorem bare_reference_prepared_alias :
    let context := Context.basic leadingTables
    let bare : Expression := .atRoot 0 ⟨1⟩
    let other : Expression := .atRoot 0 ⟨3⟩
    (leadingWorld.evaluate 2 context bare).outcome =
        .value (.reference ⟨"flag"⟩) ∧
      (leadingWorld.evaluate 2 context other).outcome =
        .value (.reference ⟨"flag"⟩) ∧
      preparedTruth true bare = preparedTruth true other ∧
      preparedTruth true bare = .value (.bool true) := by
  intro context bare other
  have takes : (truthParameter true).TakesConstants := ⟨rfl, by decide⟩
  have resolved : context.resolve ⟨"alias"⟩ = .ok (.reference ⟨"flag"⟩) := rfl
  have evaluated : (leadingWorld.evaluate 2 context bare).outcome =
      .value (.reference ⟨"flag"⟩) := rfl
  have finished : (leadingWorld.evaluate 2 context bare).outcome ≠ .cutOff := by
    simp [evaluated]
  have isName : leadingWorld.forest.referenceName? bare = some ⟨"alias"⟩ := rfl
  have noName : leadingWorld.forest.referenceName? other = none := rfl
  obtain ⟨-, -, plain⟩ := leadingWorld.bare_reference_prepared context rfl 2
    "check" takes isName noName finished rfl
  exact ⟨evaluated, rfl, plain (by simp [resolved]) (.inl rfl), rfl⟩

/-- A bare reference to a formula is refused, where the formula is taken.  A bare
reference to a further one is refused without the flag, where a call that yields
the further one is taken. -/
theorem bare_reference_differs :
    let evaluated := fun argument =>
      (leadingWorld.evaluate 2 (.basic leadingTables) argument).outcome
    let formula : Expression := .atRoot 0 ⟨0⟩
    let leading : Expression := .atRoot 0 ⟨1⟩
    let truth : Expression := .atRoot 0 ⟨2⟩
    let call : Expression := .atRoot 0 ⟨3⟩
    (evaluated formula = evaluated truth ∧
      ∀ resolves, preparedTruth resolves formula ≠ preparedTruth resolves truth) ∧
      evaluated leading = evaluated call ∧
      preparedTruth false leading ≠ preparedTruth false call :=
  ⟨⟨rfl, by rintro (_ | _) <;> nofun⟩, rfl, nofun⟩

end FormulaEngine
