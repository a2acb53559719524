import FormulaEngine.Host.Routine
import FormulaEngine.Proofs.Evaluation.Simulation
import FormulaEngine.Proofs.Expression.Session

/-!
# Scopes without bindings

A scope that binds nothing answers every question as its parent does, but for the
truth of references and expressions: these are judged by default in a scope, where
the parent may have a rule about them.  So a lambda without parameters does what
its body does in the calling context under that one change, and exactly what its
body does where the change makes no difference.
-/

namespace FormulaEngine

variable {Label : Type}

namespace Context

/-- The first context is the second one with a scope that binds nothing put in
somewhere below its own scopes. -/
inductive Silent : Context Label → Context Label → Prop
  | here (parent : Context Label) : Silent (parent.bind []) parent
  | inside {inner outer : Context Label} (silent : Silent inner outer)
      (bindings : Table Reference (Value Label)) :
      Silent (.scope inner bindings) (.scope outer bindings)

namespace Silent

variable {inner outer : Context Label}

theorem tables (silent : inner.Silent outer) : inner.tables = outer.tables := by
  induction silent with
  | here parent => rfl
  | inside silent bindings ih => exact ih

theorem function (silent : inner.Silent outer) (name : FunctionName) :
    inner.function name = outer.function name := by
  induction silent with
  | here parent => rfl
  | inside silent bindings ih => simp only [Context.function, ih]

theorem reference (silent : inner.Silent outer) (name : Reference) :
    inner.reference name = outer.reference name := by
  induction silent generalizing name with
  | here parent => rfl
  | inside silent bindings ih => simp only [Context.reference, ih]

theorem order (silent : inner.Silent outer) (forest : Forest)
    (left right : Value Label) :
    inner.order? forest left right = outer.order? forest left right := by
  induction silent with
  | here parent => rfl
  | inside silent bindings ih => exact ih

theorem truthiness (silent : inner.Silent outer) :
    inner.truthiness? = outer.truthiness? := by
  induction silent with
  | here parent => rfl
  | inside silent bindings ih => exact ih

/-- The same function answers for the purity of a name in both contexts.  It is
judged in one context, or in two of which one has a silent scope. -/
theorem judged (silent : inner.Silent outer) (name : FunctionName) :
    inner.judged? name = outer.judged? name ∨
      ∃ callable home otherHome, inner.judged? name = some (callable, home) ∧
        outer.judged? name = some (callable, otherHome) ∧
          home.Silent otherHome := by
  induction silent with
  | here parent => exact .inl rfl
  | @inside inner outer silent bindings ih =>
      simp only [judged?]
      split
      next tag callable bound =>
        exact .inr ⟨callable, _, _, rfl, rfl, silent.inside bindings⟩
      next => exact ih

theorem isPure (silent : inner.Silent outer) (forest : Forest) (steps : Nat)
    (name : FunctionName) :
    inner.isPure forest steps name = outer.isPure forest steps name := by
  induction steps generalizing inner outer name with
  | zero => rfl
  | succ steps ih =>
      rcases silent.judged name with same | ⟨callable, home, otherHome, isInner,
        isOuter, homes⟩
      · simp only [Context.isPure, same]
      · have sameHome : home.isPure forest steps = otherHome.isPure forest steps :=
          funext fun name => ih homes name
        simp only [Context.isPure, isInner, isOuter, sameHome]

theorem sameAnswers (silent : inner.Silent outer) : inner.SameAnswers outer where
  kind := by rw [Context.kind, Context.kind, silent.tables]
  math := by rw [Context.math, Context.math, silent.tables]
  function := silent.function
  reference := silent.reference
  convert forest value target := by
    simp only [Context.convert, Context.kind, silent.tables]
  order := silent.order
  isPure := silent.isPure

end Silent

end Context

/-- Host code sees of a context only the answers that it gives. -/
def Host.ReadsAnswers (host : Host Label) : Prop :=
  ∀ forest (context other : Context Label), context.SameAnswers other →
    host.SameScripts forest context other

theorem Routine.readsAnswers : Routine.host.ReadsAnswers :=
  fun forest context other same =>
    { body := fun routine arguments => by
        cases routine <;>
          simp only [host, body, same.kind, same.math, same.reference,
            same.convert, same.order]
      rearrange := fun _ _ => rfl
      keeps := fun _ _ => rfl }

namespace World

/-- The rule that decides about a value in a scope: none for references and
expressions, whatever the context. -/
def ruleInScope (context : Context Label) (value : Value Label) :
    Option (TruthRule Label) :=
  match value with
  | .reference _ | .expression _ => none
  | _ => context.truthiness?

/-- Judge as a context does, but give up where a rule would have to decide about
a reference or an expression. -/
def judgeUnlessRuled (world : World Label) : Judgement Label :=
  fun context machine value =>
    match value, ruleFor context value with
    | .reference _, some _ | .expression _, some _ => .cutOff
    | _, _ => world.judgeValue context machine value

variable {world : World Label} {inner outer : Context Label}

/-- A silent scope judges truth by its own rules, and does all else as its parent. -/
theorem simulates_silent (reads : world.host.ReadsAnswers) :
    Simulates (fun _ => True) Context.Silent world world :=
  .of_sameAnswers world (fun _ _ silent => silent.sameAnswers)
    (fun _ _ _ silent => silent.inside _)
    fun _ _ silent => reads _ _ _ silent.sameAnswers

theorem ruleFor_silent (silent : inner.Silent outer) (value : Value Label) :
    ruleFor inner value = ruleInScope outer value := by
  have same := silent.truthiness
  cases silent <;> cases value <;> first | rfl | exact same

theorem ruleFor_of_unruled {context : Context Label} {value : Value Label}
    (unruled : context.truthiness? = none) : ruleFor context value = none := by
  unfold ruleFor
  split
  · rfl
  · rfl
  · exact unruled

theorem ruleInScope_of_unruled {context : Context Label} {value : Value Label}
    (unruled : context.truthiness? = none) :
    ruleInScope context value = none := by
  unfold ruleInScope
  split
  · rfl
  · rfl
  · exact unruled

theorem ruleInScope_eq {context : Context Label} {value : Value Label}
    (decides : value.IsPlain ∨ ruleFor context value = none) :
    ruleInScope context value = ruleFor context value := by
  rcases decides with isPlain | unruled
  · rw [ruleFor_of_isPlain isPlain]
    cases value with
    | reference name => exact (isPlain.2 rfl).elim
    | expression placed => exact (isPlain.1 rfl).elim
    | _ => rfl
  · cases value with
    | reference | expression => exact unruled.symm
    | _ => rw [ruleFor_of_isPlain (by simp [Value.IsPlain, Value.type])]; rfl

/-- In a silent scope expressions evaluate as in the parent, if references and
expressions are judged as in a scope there. -/
theorem evaluate_silent (reads : world.host.ReadsAnswers)
    (silent : inner.Silent outer) (steps : Nat) (expression : Expression) :
    world.evaluate steps inner expression =
      (world.machineBy (world.judgeBy ruleInScope) steps outer).evaluate
        expression := by
  have agree : (world.machineBy (world.judgeBy ruleFor) steps inner).Agree .together
      (fun _ => True)
      (world.machineBy (world.judgeBy ruleInScope) steps outer) := by
    refine (simulates_silent reads).machineBy_agree ?_ (.inl ⟨rfl, nofun⟩) silent
    intro context other machine otherMachine silent agree value isWithin
    refine (simulates_silent reads).judgeBy silent agree isWithin ?_
    rw [ruleFor_silent silent]
  rw [evaluate, ← machineBy_judgeValue, judgeValue_eq]
  exact (agree.evaluate expression trivial).eq nofun

/-- Where no context has a rule, it makes no difference how references and
expressions are judged. -/
theorem evaluate_of_no_rule (world : World Label) {context : Context Label}
    (unruled : context.truthiness? = none) (steps : Nat)
    (expression : Expression) :
    (world.machineBy (world.judgeBy ruleInScope) steps context).evaluate
      expression = world.evaluate steps context expression := by
  have simulates := Simulates.self world (fun context => context.truthiness? =
    none) fun _ _ unruled => unruled
  have agree : (world.machineBy (world.judgeBy ruleInScope) steps context).Agree
      .together (fun _ => True) (world.machineBy (world.judgeBy ruleFor) steps
        context) := by
    refine simulates.machineBy_agree ?_ (.inl ⟨rfl, nofun⟩) ⟨rfl, unruled⟩
    rintro context _ machine otherMachine ⟨rfl, unruled⟩ agree value isWithin
    refine simulates.judgeBy ⟨rfl, unruled⟩ agree isWithin ?_
    rw [ruleFor_of_unruled unruled, ruleInScope_of_unruled unruled]
  rw [evaluate, ← machineBy_judgeValue, judgeValue_eq]
  exact (agree.evaluate expression trivial).eq nofun

/-- Giving up where a rule would decide about references and expressions only cuts
evaluations off, however these are judged otherwise. -/
theorem evaluate_unless_ruled (world : World Label) {context : Context Label}
    {steps : Nat} {expression : Expression}
    {choose : Context Label → Value Label → Option (TruthRule Label)}
    (chooses : ∀ context value, value.IsPlain ∨ ruleFor context value = none →
      choose context value = ruleFor context value)
    (finished : ((world.machineBy world.judgeUnlessRuled steps context).evaluate
      expression).outcome ≠ .cutOff) :
    (world.machineBy (world.judgeBy choose) steps context).evaluate expression =
      (world.machineBy world.judgeUnlessRuled steps context).evaluate
        expression := by
  have simulates := Simulates.self world (fun _ => True) fun _ _ held => held
  have agree : (world.machineBy world.judgeUnlessRuled steps context).Agree .earlier
      (fun _ => True) (world.machineBy (world.judgeBy choose) steps context) := by
    refine simulates.machineBy_agree ?_ (.inl ⟨rfl, nofun⟩) ⟨rfl, trivial⟩
    rintro context _ machine otherMachine ⟨rfl, -⟩ agree value isWithin
    have judges (decides : value.IsPlain ∨ ruleFor context value = none) :
        (world.judgeValue context machine value).Agrees .earlier (fun _ => True)
          (world.judgeBy choose context otherMachine value) := by
      rw [judgeValue_eq]
      refine simulates.judgeBy ⟨rfl, trivial⟩ agree isWithin ?_
      rw [chooses context value decides]
    simp only [judgeUnlessRuled]
    cases ruled : ruleFor context value with
    | none => cases value <;> exact judges (.inr ruled)
    | some rule =>
        -- Only here do the two ways of judging part.
        cases value with
        | reference | expression => exact Run.agrees_stopped rfl _
        | _ => exact judges (.inl (by simp [Value.IsPlain, Value.type]))
  exact ((agree.evaluate expression trivial).eq_of_finished finished).symm

/-- Applying a lambda without parameters is evaluating its body, but for
references and expressions, which are judged as in a scope.  That makes no
difference if there is no rule about truth, or if the rule is never asked about a
reference or an expression.  The rule decides about all other values in the scope
as it does outside. -/
theorem silent_scope_transparent (reads : world.host.ReadsAnswers)
    (tables : BasicContext Label) (body : Expression) (steps : Nat) :
    let applied := (world.machine (steps + 1) (.basic tables)).apply
      (.lambda [] body) []
    applied = (world.machineBy (world.judgeBy ruleInScope) steps
        (.basic tables)).evaluate body ∧
      (tables.truthiness = none →
        applied = world.evaluate steps (.basic tables) body) ∧
      (((world.machineBy world.judgeUnlessRuled steps
          (.basic tables)).evaluate body).outcome ≠ .cutOff →
        applied = world.evaluate steps (.basic tables) body) ∧
      ∀ value, value.IsPlain →
        (world.machine steps ((Context.basic tables).bind [])).judge value =
          (world.machine steps (.basic tables)).judge value := by
  intro applied
  have inScope : applied = (world.machineBy (world.judgeBy ruleInScope) steps
      (.basic tables)).evaluate body :=
    evaluate_silent reads (.here (.basic tables)) steps body
  refine ⟨inScope, fun unruled => ?_, fun finished => ?_, fun value =>
    judge_scope world (.basic tables) _ steps⟩
  · have unruled : (Context.basic tables).truthiness? = none := unruled
    rw [inScope, evaluate_of_no_rule world unruled steps body]
  · have outside := evaluate_unless_ruled world (fun _ _ _ => rfl) finished
    rw [inScope, evaluate_unless_ruled world (fun _ _ => ruleInScope_eq) finished,
      ← outside, evaluate, ← machineBy_judgeValue, judgeValue_eq]

end World

/-! ### A rule about truth -/

/-- A caller has built the negations of a name and of a text. -/
def negations : Session :=
  Session.start
    |>.operate (.build 0 (.reference ⟨"a"⟩))
    |>.operate (.build 0 (.unary .not (.atRoot 0 ⟨0⟩)))
    |>.operate (.build 0 (.value (.text "x")))
    |>.operate (.build 0 (.unary .not (.atRoot 0 ⟨2⟩)))

/-- Tables in which a name stands for another one, and only `true` is true. -/
def strictTables : BasicContext Routine where
  references := .ofList [(⟨"a"⟩, .reference ⟨"b"⟩), (⟨"b"⟩, .bool true)]
  truthiness := some strictTruthiness

/-- The rule decides about the text inside the lambda as it does outside. -/
theorem silent_scope_transparent_text :
    let world : World Routine := ⟨negations.forest, Routine.host⟩
    let negation := Expression.atRoot 0 ⟨3⟩
    (world.machine 4 (.basic strictTables)).apply (.lambda [] negation) [] =
        world.evaluate 3 (.basic strictTables) negation ∧
      (world.evaluate 3 (.basic strictTables) negation).outcome =
        .value (.bool true) := by
  intro world negation
  have finished : ((world.machineBy world.judgeUnlessRuled 3
      (.basic strictTables)).evaluate negation).outcome = .value (.bool true) :=
    rfl
  have reads : world.host.ReadsAnswers := Routine.readsAnswers
  have transparent := World.silent_scope_transparent reads strictTables negation 3
  exact ⟨transparent.2.2.1 (by simp [finished]), rfl⟩

/-- A rule that takes no reference for true is not asked inside a lambda, where
the reference is resolved first. -/
theorem silent_scope_reference :
    let world : World Routine := ⟨negations.forest, Routine.host⟩
    let negation := Expression.atRoot 0 ⟨1⟩
    (world.evaluate 4 (.basic strictTables) negation).outcome =
        .value (.bool true) ∧
      ((world.machine 5 (.basic strictTables)).apply (.lambda [] negation)
        []).outcome = .value (.bool false) :=
  ⟨rfl, rfl⟩

end FormulaEngine
