import FormulaEngine.Host.Routine
import FormulaEngine.Proofs.Context.Purity
import FormulaEngine.Proofs.Context.Table
import FormulaEngine.Proofs.Evaluation.Simulation
import FormulaEngine.Proofs.Expression.Session

/-!
# Runs of functions that are judged pure

Purity is judged by the names that are called in one syntax tree.  An evaluation also
comes to what the tree only refers to: stored formulas, and functions that are bound
to names or handed on by host code.  Where all of these are judged pure by themselves,
applying a lambda that is judged pure enters no host code but what is declared pure.
-/

namespace FormulaEngine

variable {Label Result Next : Type}

/-- The host code in a function, mappers and filters included, is all of some kind. -/
def Callable.UsesOnly (usable : Label → Prop) : Callable Label → Prop
  | .constantFalse | .startsWith | .lambda _ _ => True
  | .host _ label => usable label
  | .named _ inner => UsesOnly usable inner
  | .mapped label inner | .filtered label inner =>
      usable label ∧ UsesOnly usable inner

/-- Below all names and rearrangements a function is host code that is not declared
pure. -/
def Callable.isImpure (callable : Callable Label) : Bool :=
  match callable.core with
  | .host declaration _ => !declaration.isPure
  | _ => false

/-- A script asks for nothing.  It fails or ends with a result of a property. -/
def Script.AnswersAtOnce (holds : Result → Prop) (script : Script Label Result) :
    Prop :=
  ∃ answer, script = .done answer ∧ ∀ result, answer = .ok result → holds result

theorem Script.AnswersAtOnce.run {holds : Result → Prop}
    {script : Script Label Result} (answers : script.AnswersAtOnce holds)
    (machine other : Machine Label) :
    (script.run machine).Agrees .together holds (script.run other) := by
  obtain ⟨answer, rfl, isHeld⟩ := answers
  exact Run.agrees_ofExcept rfl isHeld

namespace World

section Purity

variable (world : World Label) (tables : BasicContext Label) (trusted : Label → Prop)

/-- A function is judged pure by the tables, and its host code is trusted. -/
def PureFunction (callable : Callable Label) : Prop :=
  callable.JudgedPure world.forest (.basic tables) ∧ callable.UsesOnly trusted

/-- A value by which nothing is reached that is not judged pure: all calls in a stored
formula are judged pure, and so is a function value. -/
def PureValue : Value Label → Prop
  | .expression placed => (Context.basic tables).JudgesCalls world.forest placed
  | .function _ callable => world.PureFunction tables trusted callable
  | _ => True

/-- Scopes over the tables in which such values are bound. -/
inductive PureScope : Context Label → Prop
  | tables : PureScope (.basic tables)
  | scope {parent : Context Label} {bindings : Table Reference (Value Label)}
      (outside : PureScope parent)
      (bound : ∀ name value, bindings.find? name = some value →
        world.PureValue tables trusted value) :
      PureScope (.scope parent bindings)

/-- An evaluation is offered nothing that is not judged pure: neither by the table of
references nor by conversions nor by the host code of functions that are judged pure,
which is trusted to ask for nothing itself. -/
structure OffersPure : Prop where
  references : ∀ name value, tables.references.find? name = some value →
    world.PureValue tables trusted value
  functions : ∀ name callable, tables.functions.find? name = some callable →
    callable.JudgedPure world.forest (.basic tables) → callable.UsesOnly trusted
  conversions : ∀ value target result, world.PureValue tables trusted value →
    (Context.basic tables).convert world.forest value target = .ok result →
      world.PureValue tables trusted result
  bodies : ∀ label context arguments, trusted label →
    world.PureScope tables trusted context →
      (∀ argument ∈ arguments, world.PureValue tables trusted argument) →
        (world.host.body label world.forest context arguments).AnswersAtOnce
          (world.PureValue tables trusted)
  mappers : ∀ label context arguments, trusted label →
    world.PureScope tables trusted context →
      (∀ argument ∈ arguments, world.PureValue tables trusted argument) →
        (world.host.rearrange label world.forest context arguments).AnswersAtOnce
          fun values => ∀ value ∈ values, world.PureValue tables trusted value
  filters : ∀ label context value, trusted label →
    world.PureScope tables trusted context → world.PureValue tables trusted value →
      (world.host.keeps label world.forest context value).AnswersAtOnce fun _ => True

/-- The machine of a context that cuts the application of host code off unless the
code is declared pure. -/
def pureMachine (world : World Label) :
    (steps : Nat) → Context Label → Machine Label
  | 0, _ => .stopped
  | steps + 1, context =>
      { evaluate := fun expression =>
          world.evaluateNode context (pureMachine world steps context)
            (world.forest.node expression)
        judge := world.judgeValue context (pureMachine world steps context)
        apply := fun callable arguments =>
          if callable.isImpure then .cutOff
          else
            world.applyCallable (pureMachine world steps) context callable
              arguments }

/-- Two machines do the same with what is judged pure, and what comes out is judged
pure as well. -/
structure AgreePurely (machine other : Machine Label) : Prop where
  evaluate : ∀ expression,
    (Context.basic tables).JudgesCalls world.forest expression →
      (machine.evaluate expression).Agrees .together
        (world.PureValue tables trusted) (other.evaluate expression)
  judge : ∀ value, world.PureValue tables trusted value →
    (machine.judge value).Agrees .together (fun _ => True) (other.judge value)
  apply : ∀ callable arguments, world.PureFunction tables trusted callable →
    (∀ argument ∈ arguments, world.PureValue tables trusted argument) →
      (machine.apply callable arguments).Agrees .together
        (world.PureValue tables trusted) (other.apply callable arguments)

end Purity

variable {world : World Label} {tables : BasicContext Label} {trusted : Label → Prop}
  {context : Context Label} {machine other : Machine Label}

theorem PureFunction.not_isImpure {callable : Callable Label}
    (isPure : world.PureFunction tables trusted callable) :
    callable.isImpure = false := by
  unfold Callable.isImpure
  split
  next declaration label isHost => simp [isPure.1.isPure_of_core isHost]
  next => rfl

theorem pureValue_of_isScalar {value : Value Label} (scalar : value.IsScalar) :
    world.PureValue tables trusted value := by
  cases value with
  | bool | text | number => trivial
  | _ => exact scalar.elim

/-- By the basic rules nothing turns into a formula or a function. -/
theorem pureValue_of_convert (converter : tables.converter = .basic)
    {value result : Value Label} {target : ValueType}
    (isPure : world.PureValue tables trusted value)
    (converts : (Context.basic tables).convert world.forest value target =
      .ok result) : world.PureValue tables trusted result := by
  simp only [Context.convert, Context.tables, converter, Converter.basic] at converts
  split at converts
  next converted isConverted =>
    cases converts
    rcases Value.convert?_eq_or isConverted with rfl | ⟨noExpression, noFunction⟩
    · exact isPure
    · cases result with
      | expression placed => exact (noExpression rfl).elim
      | function tag callable => exact (noFunction rfl).elim
      | _ => trivial
  next => cases converts

/-! ### Contexts -/

namespace PureScope

theorem tables_eq (isPure : world.PureScope tables trusted context) :
    context.tables = tables := by
  induction isPure with
  | tables => rfl
  | scope outside bound ih => exact ih

/-- What is found under a name that is judged pure is judged pure, also where the name
is bound to something else in a scope. -/
theorem function (offers : world.OffersPure tables trusted)
    (isPure : world.PureScope tables trusted context) {name : FunctionName}
    (judges : (Context.basic tables).JudgesPure world.forest name)
    {callable : Callable Label} (found : context.function name = .ok callable) :
    world.PureFunction tables trusted callable := by
  induction isPure with
  | tables =>
      obtain ⟨registered, isRegistered, judged⟩ :=
        BasicContext.exists_of_judgesPure judges
      simp only [Context.function, BasicContext.function, isRegistered] at found
      cases found
      exact ⟨judged, offers.functions name _ isRegistered judged⟩
  | scope outside bound ih =>
      simp only [Context.function] at found
      split at found
      next tag inner isBound =>
        cases found
        exact bound _ _ isBound
      next => exact ih found

theorem reference (offers : world.OffersPure tables trusted)
    (isPure : world.PureScope tables trusted context) {name : Reference}
    {value : Value Label} (found : context.reference name = .ok (some value)) :
    world.PureValue tables trusted value := by
  induction isPure generalizing name with
  | tables => exact offers.references name value (Except.ok.inj found)
  | scope outside bound ih =>
      simp only [Context.reference] at found
      split at found
      next outer isBound => exact ih found
      next inner isBound =>
        cases found
        exact bound _ _ isBound
      next => exact ih found

theorem resolve (offers : world.OffersPure tables trusted)
    (isPure : world.PureScope tables trusted context) (name : Reference) :
    ResolveAlike (world.PureValue tables trusted) context context name where
  same := rfl
  isGood value resolved := by
    obtain ⟨found, isFound, resolved⟩ := Attempt.of_bind resolved
    cases found with
    | none => cases resolved
    | some found =>
        cases resolved
        exact isPure.reference offers isFound

theorem bind (isPure : world.PureScope tables trusted context)
    (parameters : List Parameter) {arguments : List (Value Label)}
    (arePure : ∀ argument ∈ arguments, world.PureValue tables trusted argument) :
    world.PureScope tables trusted (scopeOf context parameters arguments) := by
  refine .scope isPure fun name value found => ?_
  have member := Table.mem_of_find?_ofList found
  exact arePure value (List.of_mem_zip member).2

theorem convertAlike (offers : world.OffersPure tables trusted)
    (isPure : world.PureScope tables trusted context) :
    ConvertAlike (world.PureValue tables trusted) (world.PureValue tables trusted)
      world.forest context world.forest context where
  kind := rfl
  math := rfl
  isFit _ isHeld := isHeld
  convert _ _ _ := rfl
  converted value target result isHeld converts := by
    refine offers.conversions value target result isHeld ?_
    simpa only [Context.convert, Context.kind, isPure.tables_eq, Context.tables]
      using converts
  write _ _ := rfl
  order _ _ _ _ := rfl

end PureScope

/-! ### Evaluation -/

section Steps

variable (offers : world.OffersPure tables trusted)

include offers

theorem prepare_agreePurely (isPure : world.PureScope tables trusted context)
    (agree : world.AgreePurely tables trusted machine other)
    (callable : Callable Label) {arguments : List Expression}
    (judges : ∀ argument ∈ arguments,
      (Context.basic tables).JudgesCalls world.forest argument) :
    (context.prepare world.forest machine callable arguments).Agrees .together
      (fun values => ∀ value ∈ values, world.PureValue tables trusted value)
      (context.prepare world.forest other callable arguments) := by
  have below : List.Forall₂ (fun argument image => argument = image ∧
      (Context.basic tables).JudgesCalls world.forest argument)
      arguments arguments :=
    List.forall₂_same.mpr fun argument member => ⟨rfl, judges argument member⟩
  refine Context.prepare_agrees below ?_ ?_
  · rintro parameter - argument _ ⟨rfl, judged⟩
    exact Context.prepareArgument_agrees (isPure.convertAlike offers) _ rfl
      (fun name _ => ⟨.good trivial, isPure.resolve offers name⟩)
      (fun name _ => isPure.resolve offers name) (fun _ => ⟨rfl, judged⟩)
      (agree.evaluate argument judged)
  · rintro argument _ ⟨rfl, judged⟩
    exact agree.evaluate argument judged

/-- A node whose calls are judged pure evaluates alike. -/
theorem evaluateNode_agreePurely (wellFormed : world.forest.WellFormed)
    (isPure : world.PureScope tables trusted context)
    (agree : world.AgreePurely tables trusted machine other)
    {expression : Expression}
    (judges : (Context.basic tables).JudgesCalls world.forest expression) :
    (world.evaluateNode context machine (world.forest.node expression)).Agrees
      .together (world.PureValue tables trusted)
      (world.evaluateNode context other (world.forest.node expression)) := by
  have alike := (isPure.convertAlike offers).operate agree.judge
  have scalar (value : Value Label) (isScalar : value.IsScalar) :
      world.PureValue tables trusted value := pureValue_of_isScalar isScalar
  have below (child : Expression)
      (isChild : child ∈ (world.forest.node expression).children) :=
    agree.evaluate child (judges.child wellFormed isChild)
  cases isNode : world.forest.node expression with
  | value literal => exact evaluateNode_value_agrees rfl scalar literal
  | reference name =>
      exact evaluateNode_reference_agrees (isPure.resolve offers name) agree.evaluate
  | unary op operand =>
      exact evaluateNode_unary_agrees alike scalar op
        (below operand (by simp [isNode, Node.children]))
  | binary op left right =>
      exact evaluateNode_binary_agrees alike scalar op
        (below left (by simp [isNode, Node.children]))
        (below right (by simp [isNode, Node.children]))
  | call name arguments =>
      have isCallee (callable : Callable Label)
          (found : context.function name = .ok callable) :=
        isPure.function offers (judges.call wellFormed isNode) found
      refine evaluateNode_call_agrees rfl rfl (fun callable _ => ?_)
        fun callable values found areFit =>
          agree.apply callable values (isCallee callable found) areFit
      refine prepare_agreePurely offers isPure agree callable fun argument member => ?_
      exact judges.child wellFormed (by simpa [isNode, Node.children] using member)
  | lambda parameters body =>
      -- The names called in the body count as called in the expression.
      refine Run.agrees_pure ⟨Callable.judgedPure_lambda_iff.mpr ?_, trivial⟩
      exact judges.child wellFormed (by simp [isNode, Node.children])

theorem judgeValue_agreePurely (isPure : world.PureScope tables trusted context)
    (agree : world.AgreePurely tables trusted machine other) {value : Value Label}
    (isHeld : world.PureValue tables trusted value) :
    (world.judgeValue context machine value).Agrees .together (fun _ => True)
      (world.judgeValue context other value) := by
  rw [judgeValue_eq]
  simp only [judgeBy]
  split
  next => exact Run.agrees_pure trivial
  next =>
    cases value with
    | reference name =>
        have resolve := isPure.resolve offers name
        exact (Run.agrees_ofExcept resolve.same resolve.isGood).bind agree.judge
    | expression placed => exact (agree.evaluate placed isHeld).bind agree.judge
    | _ => exact Run.agrees_pure trivial

/-- A function that is judged pure is applied alike. -/
theorem applyCallable_agreePurely {machineOf otherOf : Context Label → Machine Label}
    (agree : ∀ context, world.PureScope tables trusted context →
      world.AgreePurely tables trusted (machineOf context) (otherOf context))
    (isPure : world.PureScope tables trusted context) :
    ∀ (callable : Callable Label) (arguments : List (Value Label)),
      world.PureFunction tables trusted callable →
        (∀ argument ∈ arguments, world.PureValue tables trusted argument) →
          (world.applyCallable machineOf context callable arguments).Agrees .together
            (world.PureValue tables trusted)
            (world.applyCallable otherOf context callable arguments)
  | .constantFalse, _, _, _ => Run.agrees_pure trivial
  | .startsWith, _, _, _ =>
      Run.agrees_ofExcept rfl fun _ succeeds =>
        pureValue_of_isScalar (isScalar_startsWith succeeds)
  | .lambda parameters body, arguments, callee, arePure => by
      refine (Run.agrees_ofExcept rfl fun _ _ => trivial).bind
        fun _ (_ : True) => ?_
      exact (agree _ (isPure.bind parameters arePure)).evaluate body
        (Callable.judgedPure_lambda_iff.mp callee.1)
  | .host declaration label, arguments, callee, arePure =>
      ((offers.bodies label context arguments callee.2 isPure arePure).run _ _).after _
  | .named _ inner, arguments, callee, arePure =>
      applyCallable_agreePurely agree isPure inner arguments callee arePure
  | .mapped label inner, arguments, ⟨judged, isTrusted, usesOnly⟩, arePure =>
      ((offers.mappers label context arguments isTrusted isPure arePure).run _ _).bind
        fun mapped =>
          applyCallable_agreePurely agree isPure inner mapped ⟨judged, usesOnly⟩
  | .filtered label inner, arguments, ⟨judged, isTrusted, usesOnly⟩, arePure =>
      (keepArguments_agrees (fun value isHeld =>
        (offers.filters label context value isTrusted isPure isHeld).run _ _)
          arePure).bind fun kept =>
        applyCallable_agreePurely agree isPure inner kept ⟨judged, usesOnly⟩

/-- As long as all that is reached is judged pure, nothing is cut off for being
impure. -/
theorem machine_agreePurely (wellFormed : world.forest.WellFormed) (steps : Nat)
    (isPure : world.PureScope tables trusted context) :
    world.AgreePurely tables trusted (world.machine steps context)
      (world.pureMachine steps context) := by
  -- The contexts vary: a lambda applied on the way opens a scope over its own.
  induction steps generalizing context with
  | zero =>
      exact ⟨fun _ _ => Run.agrees_cutOff nofun, fun _ _ => Run.agrees_cutOff nofun,
        fun _ _ _ _ => Run.agrees_cutOff nofun⟩
  | succ steps ih =>
      refine ⟨fun expression judges => ?_, fun value isHeld => ?_,
        fun callable arguments callee arePure => ?_⟩
      · exact evaluateNode_agreePurely offers wellFormed isPure (ih isPure) judges
      · exact judgeValue_agreePurely offers isPure (ih isPure) isHeld
      · simp only [machine, pureMachine, callee.not_isImpure]
        exact applyCallable_agreePurely offers (fun context => ih) isPure callable
          arguments callee arePure

/-- Applying a lambda that is judged pure enters no host code but what is declared
pure, if nothing else is offered to an evaluation: if the formulas and functions in
the table of references are judged pure themselves, and so are those that the host
code of pure functions and conversions yield. -/
theorem apply_judgedPure (wellFormed : world.forest.WellFormed)
    {parameters : List Parameter} {body : Expression}
    (judged : (Callable.lambda parameters body : Callable Label).JudgedPure
      world.forest (.basic tables))
    {arguments : List (Value Label)}
    (arePure : ∀ argument ∈ arguments, world.PureValue tables trusted argument)
    (steps : Nat) :
    (world.machine steps (.basic tables)).apply (.lambda parameters body) arguments =
      (world.pureMachine steps (.basic tables)).apply (.lambda parameters body)
        arguments :=
  ((machine_agreePurely offers wellFormed steps .tables).apply _ arguments
    ⟨judged, trivial⟩ arePure).eq nofun

end Steps

end World

/-! ### Stored formulas and functions -/

namespace Session

/-- A caller has built a call of `total` and the sum of two references. -/
def storedTotal : Session :=
  start
    |>.operate (.build 0 (.call ⟨"total"⟩ []))
    |>.operate (.build 0 (.reference ⟨"formula"⟩))
    |>.operate (.build 0 (.reference ⟨"x"⟩))
    |>.operate (.build 0 (.binary .add (.atRoot 0 ⟨1⟩) (.atRoot 0 ⟨2⟩)))

theorem reachable_storedTotal : storedTotal.Reachable := by
  unfold storedTotal
  refine .move (.move (.move (.move .start (.operate _ ?_)) (.operate _ ?_))
    (.operate _ ?_)) (.operate _ ?_)
  all_goals decide +kernel

/-- A caller has built a call of `random`, a reference to a formula, and calls of
`apply` with a stored function and with one that is made. -/
def hiddenCalls : Session :=
  start
    |>.operate (.build 0 (.call ⟨"random"⟩ []))
    |>.operate (.build 0 (.reference ⟨"formula"⟩))
    |>.operate (.build 0 (.call ⟨"f"⟩ []))
    |>.operate (.build 0 (.reference ⟨"stored"⟩))
    |>.operate (.build 0 (.call ⟨"apply"⟩ [.atRoot 0 ⟨3⟩]))
    |>.operate (.build 0 (.call ⟨"make"⟩ []))
    |>.operate (.build 0 (.call ⟨"apply"⟩ [.atRoot 0 ⟨5⟩]))

end Session

/-- Host code without parameters that counts its arguments. -/
def countingHost (name : FunctionName) (isPure : Bool) : Callable Routine :=
  .host { name, parameters := [], isPure } .count

/-- Tables with a pure function, one that is not pure, and a formula that calls the
pure one. -/
def storedTotalTables : BasicContext Routine where
  functions := .ofList
    [(⟨"total"⟩, countingHost ⟨"total"⟩ true),
      (⟨"random"⟩, countingHost ⟨"random"⟩ false)]
  references := .ofList [(⟨"formula"⟩, .expression (.atRoot 0 ⟨0⟩))]

theorem offersPure_storedTotal :
    (⟨Session.storedTotal.forest, Routine.host⟩ : World Routine).OffersPure
      storedTotalTables (· = .count) where
  references name value found := by
    have member := Table.mem_of_find?_ofList found
    obtain ⟨-, rfl⟩ := Prod.mk.inj (List.mem_singleton.mp member)
    have calls : Session.storedTotal.forest.calledNames (.atRoot 0 ⟨0⟩) =
        [⟨"total"⟩] := by decide +kernel
    intro name isCalled
    rw [calls] at isCalled
    obtain rfl := List.mem_singleton.mp isCalled
    exact ⟨1, rfl⟩
  functions name callable found judged := by
    have member := Table.mem_of_find?_ofList found
    simp only [List.mem_cons, Prod.mk.injEq, List.not_mem_nil, or_false] at member
    obtain ⟨-, rfl⟩ | ⟨-, rfl⟩ := member
    · rfl
    · rfl
  conversions _ _ _ := World.pureValue_of_convert rfl
  bodies label _ _ isCount _ _ := by
    subst isCount
    exact ⟨_, rfl, by rintro result ⟨rfl⟩; trivial⟩
  mappers label _ _ isCount _ arePure := by
    subst isCount
    exact ⟨_, rfl, by rintro result ⟨rfl⟩; exact arePure⟩
  filters label _ _ isCount _ _ := by
    subst isCount
    exact ⟨_, rfl, fun _ _ => trivial⟩

/-- A lambda adds its argument to what a stored formula yields. -/
theorem apply_judgedPure_total :
    let world : World Routine := ⟨Session.storedTotal.forest, Routine.host⟩
    let context : Context Routine := .basic storedTotalTables
    let sum : Callable Routine :=
      .lambda [⟨⟨"x"⟩, .integer, .required, {}⟩] (.atRoot 0 ⟨3⟩)
    sum.isPure world.forest 0 context = some true ∧
      ((world.machine 5 context).apply sum [.integer 1]).calls = [⟨⟨"total"⟩, []⟩] ∧
      (world.machine 5 context).apply sum [.integer 1] =
        (world.pureMachine 5 context).apply sum [.integer 1] := by
  intro world context sum
  have judged : sum.isPure world.forest 0 context = some true := rfl
  have isScalar : ∀ argument ∈ [(.integer 1 : Value Routine)],
      world.PureValue storedTotalTables (· = .count) argument :=
    List.forall_mem_singleton.mpr trivial
  exact ⟨judged, rfl, World.apply_judgedPure offersPure_storedTotal
    Session.reachable_storedTotal.valid.wellFormed ⟨0, judged⟩ isScalar 5⟩

/-- Tables with a formula and a function that are not pure among the references, and a
pure function that makes another one that is not.  The lambda under the name of
`apply` has a parameter with the name of a pure function, which it calls. -/
def hiddenCallsTables : BasicContext Routine where
  functions := .ofList
    [(⟨"random"⟩, countingHost ⟨"random"⟩ false),
      (⟨"f"⟩, countingHost ⟨"f"⟩ true),
      (⟨"make"⟩, .host { name := ⟨"make"⟩, parameters := [] }
        (.constant (.function none (countingHost ⟨"random"⟩ false)))),
      (⟨"apply"⟩, .lambda
        [⟨⟨"f"⟩, .any, .required, { resolvesReferences := true }⟩] (.atRoot 0 ⟨2⟩))]
  references := .ofList
    [(⟨"formula"⟩, .expression (.atRoot 0 ⟨0⟩)),
      (⟨"stored"⟩, .function none (countingHost ⟨"random"⟩ false))]

set_option maxRecDepth 2000 in
/-- Lambdas that are judged pure enter the body of `random`, which is not: by way of a
stored formula, of a stored function, and of a function that another one yields. -/
theorem judgedPure_enters_impure :
    let world : World Routine := ⟨Session.hiddenCalls.forest, Routine.host⟩
    let context : Context Routine := .basic hiddenCallsTables
    let run (body : Expression) : Run Routine (Value Routine) :=
      (world.machine 6 context).apply (.lambda [] body) []
    (∀ body ∈ [Expression.atRoot 0 ⟨1⟩, .atRoot 0 ⟨4⟩, .atRoot 0 ⟨6⟩],
        (Callable.lambda [] body : Callable Routine).isPure world.forest 3 context =
          some true) ∧
      context.isPure world.forest 1 ⟨"random"⟩ = some false ∧
      (run (.atRoot 0 ⟨1⟩)).calls = [⟨⟨"random"⟩, []⟩] ∧
      (run (.atRoot 0 ⟨4⟩)).calls = [⟨⟨"random"⟩, []⟩] ∧
      (run (.atRoot 0 ⟨6⟩)).calls = [⟨⟨"make"⟩, []⟩, ⟨⟨"random"⟩, []⟩] := by
  intro world context run
  refine ⟨?_, rfl, rfl, rfl, rfl⟩
  simp only [List.forall_mem_cons, List.not_mem_nil, IsEmpty.forall_iff, implies_true,
    and_true]
  exact ⟨rfl, rfl, rfl⟩

end FormulaEngine
