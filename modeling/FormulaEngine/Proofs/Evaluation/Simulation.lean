import FormulaEngine.Context.Purity
import FormulaEngine.Proofs.Evaluation.Known
import FormulaEngine.Proofs.Evaluation.Node
import FormulaEngine.Proofs.Evaluation.Truth

/-!
# Simulation

One world simulates another when its forest reads the same, as far as the known
expressions go, when its contexts answer alike, and when host code is given the
same scripts.  What is reached from known expressions stays known, and so the
machines of related contexts agree on them.  The judgement of truth is a
parameter, and a machine may be compared with one of more steps if it is allowed
to stop early.
-/

namespace FormulaEngine

variable {Label : Type}

namespace World

/-- The machine of a context with a number of steps, given the judgement of
truth. -/
def machineBy (world : World Label) (judgement : Judgement Label) :
    (steps : Nat) → Context Label → Machine Label
  | 0, _ => .stopped
  | steps + 1, context =>
      { evaluate := fun expression =>
          world.evaluateNode context (machineBy world judgement steps context)
            (world.forest.node expression)
        judge := judgement context (machineBy world judgement steps context)
        apply :=
          world.applyCallable (machineBy world judgement steps) context }

theorem machineBy_judgeValue (world : World Label) (steps : Nat) :
    world.machineBy world.judgeValue steps = world.machine steps := by
  induction steps with
  | zero => rfl
  | succ steps ih =>
      funext context
      simp only [machineBy, machine, ih]

theorem isScalar_startsWith {world : World Label} {context : Context Label}
    {arguments : List (Value Label)} {result : Value Label}
    (succeeds : world.startsWith context arguments = .ok result) :
    result.IsScalar := by
  unfold startsWith at succeeds
  split at succeeds
  · obtain ⟨text, -, succeeds⟩ := Attempt.of_bind succeeds
    obtain ⟨initial, -, succeeds⟩ := Attempt.of_bind succeeds
    cases succeeds
    trivial
  · obtain ⟨-, -, succeeds⟩ := Attempt.of_bind succeeds
    cases succeeds
    trivial

end World

/-! ### Worlds -/

/-- Two contexts, each in its forest, answer alike about what is known, and what
they answer is known. -/
structure Context.AnswerAlike (known : Expression → Prop)
    (forest : Forest) (context : Context Label) (otherForest : Forest)
    (other : Context Label) : Prop
    extends ConvertAlike (Value.Within known) (Value.Within known) forest context
      otherForest other where
  function : ∀ name, context.function name = other.function name
  functionWithin : ∀ name callable, context.function name = .ok callable →
    callable.Within known
  resolve : ∀ name, ResolveAlike (Value.Within known) context other name

/-- Two contexts give the same answers to host code. -/
structure Context.SameAnswers (context other : Context Label) : Prop where
  kind : context.kind = other.kind
  math : context.math = other.math
  function : ∀ name, context.function name = other.function name
  reference : ∀ name, context.reference name = other.reference name
  convert : ∀ forest value target,
    context.convert forest value target = other.convert forest value target
  order : ∀ forest left right,
    context.order? forest left right = other.order? forest left right
  isPure : ∀ forest steps name,
    context.isPure forest steps name = other.isPure forest steps name

theorem Context.SameAnswers.refl (context : Context Label) :
    context.SameAnswers context :=
  ⟨rfl, rfl, fun _ => rfl, fun _ => rfl, fun _ _ _ => rfl, fun _ _ _ => rfl,
    fun _ _ _ => rfl⟩

/-- Host code is given the same scripts in two contexts. -/
structure Host.SameScripts (host : Host Label) (forest : Forest)
    (context other : Context Label) : Prop where
  body : ∀ label arguments, host.body label forest context arguments =
    host.body label forest other arguments
  rearrange : ∀ label arguments, host.rearrange label forest context arguments =
    host.rearrange label forest other arguments
  keeps : ∀ label value, host.keeps label forest context value =
    host.keeps label forest other value

/-- Two forests read the same as far as expressions are known, and what is seen
from a known expression is known. -/
structure Forest.ReadsAlike (known : Expression → Prop)
    (first second : Forest) : Prop where
  node : ∀ expression, known expression →
    second.node expression = first.node expression
  child : ∀ expression, known expression →
    ∀ child ∈ (first.node expression).children, known child

/-- The second world simulates the first one in related contexts, as far as
expressions are known. -/
structure Simulates (known : Expression → Prop)
    (related : Context Label → Context Label → Prop)
    (first second : World Label) : Prop where
  reads : first.forest.ReadsAlike known second.forest
  answers : ∀ context other, related context other →
    context.AnswerAlike known first.forest second.forest other
  bind : ∀ (context other : Context Label)
    (bindings : List (Reference × Value Label)), related context other →
      (∀ binding ∈ bindings, binding.2.Within known) →
        related (context.bind bindings) (other.bind bindings)
  body : ∀ label context other arguments, related context other →
    (∀ argument ∈ arguments, argument.Within known) →
      Script.AlikeWithin known (Value.Within known)
        (first.host.body label first.forest context arguments)
        (second.host.body label second.forest other arguments)
  rearrange : ∀ label context other arguments, related context other →
    (∀ argument ∈ arguments, argument.Within known) →
      Script.AlikeWithin known (fun results => ∀ result ∈ results,
          Value.Within known result)
        (first.host.rearrange label first.forest context arguments)
        (second.host.rearrange label second.forest other arguments)
  keeps : ∀ label context other (value : Value Label), related context other →
    value.Within known →
      Script.AlikeWithin known (fun _ => True)
        (first.host.keeps label first.forest context value)
        (second.host.keeps label second.forest other value)

namespace Simulates

variable {stops : Run.Stops} {known : Expression → Prop}
  {related : Context Label → Context Label → Prop} {first second : World Label}
  {context other : Context Label} {machine otherMachine : Machine Label}

theorem prepare (simulates : Simulates known related first second)
    (isRelated : related context other)
    (agree : machine.Agree stops known otherMachine)
    (callable : Callable Label) {arguments : List Expression}
    (areKnown : ∀ argument ∈ arguments, known argument) :
    (context.prepare first.forest machine callable arguments).Agrees stops
      (fun values => ∀ value ∈ values, value.Within known)
      (other.prepare second.forest otherMachine callable arguments) := by
  have answers := simulates.answers context other isRelated
  have below : List.Forall₂ (fun argument image => argument = image ∧
      known argument) arguments arguments :=
    List.forall₂_same.mpr fun argument member => ⟨rfl, areKnown argument member⟩
  refine Context.prepare_agrees below ?_ ?_
  · rintro parameter - argument _ ⟨rfl, isKnown⟩
    refine Context.prepareArgument_agrees answers.toConvertAlike _ ?_
      (fun name _ => ⟨.good trivial, answers.resolve name⟩)
      (fun name _ => answers.resolve name) (fun _ => ⟨rfl, isKnown⟩)
      (agree.evaluate argument isKnown)
    rw [Forest.referenceName?_eq, Forest.referenceName?_eq,
      simulates.reads.node argument isKnown]
  · rintro argument _ ⟨rfl, isKnown⟩
    exact agree.evaluate argument isKnown

/-- Related contexts make the same of a known node. -/
theorem evaluateNode (simulates : Simulates known related first second)
    (isRelated : related context other)
    (agree : machine.Agree stops known otherMachine) {expression : Expression}
    (isKnown : known expression) :
    (first.evaluateNode context machine (first.forest.node expression)).Agrees
      stops (Value.Within known)
      (second.evaluateNode other otherMachine
        (second.forest.node expression)) := by
  have answers := simulates.answers context other isRelated
  have alike := answers.operate agree.judge
  have scalar (value : Value Label) (isScalar : value.IsScalar) :
      value.Within known := isScalar.within
  have child := simulates.reads.child expression isKnown
  rw [simulates.reads.node expression isKnown]
  generalize first.forest.node expression = node at child ⊢
  cases node with
  | value literal =>
      exact World.evaluateNode_value_agrees answers.kind scalar literal
  | reference name =>
      exact World.evaluateNode_reference_agrees (answers.resolve name)
        agree.evaluate
  | unary op operand =>
      exact World.evaluateNode_unary_agrees alike scalar op
        (agree.evaluate operand (child operand (by simp [Node.children])))
  | binary op left right =>
      exact World.evaluateNode_binary_agrees alike scalar op
        (agree.evaluate left (child left (by simp [Node.children])))
        (agree.evaluate right (child right (by simp [Node.children])))
  | call name arguments =>
      exact World.evaluateNode_call_agrees (answers.function name) rfl
        (fun callable _ => simulates.prepare isRelated agree callable child)
        (fun callable values found areWithin => agree.apply callable values
          (answers.functionWithin name callable found) areWithin)
  | lambda parameters body =>
      exact Run.agrees_pure (child body (by simp [Node.children]))

theorem startsWith (simulates : Simulates known related first second)
    (isRelated : related context other) {arguments : List (Value Label)}
    (areWithin : ∀ argument ∈ arguments, argument.Within known) :
    first.startsWith context arguments = second.startsWith other arguments := by
  have answers := simulates.answers context other isRelated
  have textArgument (value : Value Label) (isWithin : value.Within known) :
      first.textArgument context value = second.textArgument other value := by
    cases value with
    | text text => rfl
    | _ => exact answers.textOf isWithin
  match arguments with
  | [] | [_] | _ :: _ :: _ :: _ => rfl
  | [text, initial] =>
      simp only [World.startsWith, textArgument text (areWithin _ (by simp)),
        textArgument initial (areWithin _ (by simp))]

/-- Related contexts make the same of the application of a function, given
machines for all contexts. -/
theorem applyCallable (simulates : Simulates known related first second)
    {machineOf otherMachineOf : Context Label → Machine Label}
    (agree : ∀ context other, related context other →
      (machineOf context).Agree stops known (otherMachineOf other))
    (isRelated : related context other) :
    ∀ (callable : Callable Label) (arguments : List (Value Label)),
      callable.Within known → (∀ argument ∈ arguments, argument.Within known) →
        (first.applyCallable machineOf context callable arguments).Agrees
          stops (Value.Within known)
          (second.applyCallable otherMachineOf other callable arguments)
  | .constantFalse, _, _, _ => Run.agrees_pure trivial
  | .startsWith, arguments, _, areWithin =>
      Run.agrees_ofExcept (simulates.startsWith isRelated areWithin)
        fun _ succeeds => (World.isScalar_startsWith succeeds).within
  | .lambda parameters body, arguments, isWithin, areWithin => by
      refine (Run.agrees_ofExcept rfl fun _ _ => trivial).bind
        fun _ (_ : True) => ?_
      refine (agree _ _ (simulates.bind context other _ isRelated ?_)).evaluate
        body isWithin
      intro binding member
      exact areWithin _ (List.of_mem_zip member).2
  | .host declaration label, arguments, _, areWithin => by
      obtain ⟨within, same⟩ :=
        simulates.body label context other arguments isRelated areWithin
      simp only [World.applyCallable, same]
      exact (within.run (agree context other isRelated)).after _
  | .named _ inner, arguments, isWithin, areWithin =>
      applyCallable simulates agree isRelated inner arguments isWithin areWithin
  | .mapped label inner, arguments, isWithin, areWithin => by
      obtain ⟨within, same⟩ :=
        simulates.rearrange label context other arguments isRelated areWithin
      simp only [World.applyCallable, same]
      exact (within.run (agree context other isRelated)).bind fun rearranged =>
        applyCallable simulates agree isRelated inner rearranged isWithin
  | .filtered label inner, arguments, isWithin, areWithin => by
      have tests (value : Value Label) (valueWithin : value.Within known) :
          ((first.host.keeps label first.forest context value).run
            (machineOf context)).Agrees stops (fun _ => True)
            ((second.host.keeps label second.forest other value).run
              (otherMachineOf other)) := by
        obtain ⟨within, same⟩ :=
          simulates.keeps label context other value isRelated valueWithin
        rw [same]
        exact within.run (agree context other isRelated)
      exact (World.keepArguments_agrees tests areWithin).bind fun kept =>
        applyCallable simulates agree isRelated inner kept isWithin

/-- Machines of related contexts agree, if their judgements do.  They take
equally many steps, or the first may stop and takes no more than the second. -/
theorem machineBy_agree (simulates : Simulates known related first second)
    {judgement following : Judgement Label}
    (judges : ∀ context other machine otherMachine, related context other →
      machine.Agree stops known otherMachine → ∀ value, value.Within known →
        (judgement context machine value).Agrees stops (fun _ => True)
          (following other otherMachine value))
    {steps others : Nat} (enough : steps = others ∧ stops ≠ .never ∨
      steps ≤ others ∧ stops = .earlier)
    (isRelated : related context other) :
    (first.machineBy judgement steps context).Agree stops known
      (second.machineBy following others other) := by
  -- The contexts vary: a lambda applied on the way opens a scope over its own.
  induction steps generalizing others context other with
  | zero =>
      rcases enough with ⟨rfl, mayStop⟩ | ⟨-, earlier⟩
      · exact ⟨fun _ _ => Run.agrees_cutOff mayStop,
          fun _ _ => Run.agrees_cutOff mayStop,
          fun _ _ _ _ => Run.agrees_cutOff mayStop⟩
      · exact ⟨fun _ _ => Run.agrees_stopped earlier _,
          fun _ _ => Run.agrees_stopped earlier _,
          fun _ _ _ _ => Run.agrees_stopped earlier _⟩
  | succ steps ih =>
      obtain ⟨others, rfl⟩ : ∃ fewer, others = fewer + 1 := by
        rcases enough with ⟨rfl, -⟩ | ⟨enough, -⟩
        · exact ⟨steps, rfl⟩
        · exact ⟨others - 1, by omega⟩
      have below (context other : Context Label)
          (isRelated : related context other) :=
        ih (by simpa using enough) isRelated
      have agree := below context other isRelated
      exact ⟨fun _ isKnown => simulates.evaluateNode isRelated agree isKnown,
        judges context other _ _ isRelated agree,
        simulates.applyCallable below isRelated⟩

theorem judgeByDefault (simulates : Simulates known related first second)
    (isRelated : related context other)
    (agree : machine.Agree stops known otherMachine) {value : Value Label}
    (isWithin : value.Within known) :
    (World.judgeByDefault context machine value).Agrees stops (fun _ => True)
      (World.judgeByDefault other otherMachine value) := by
  have answers := simulates.answers context other isRelated
  cases value with
  | reference name =>
      have resolve := answers.resolve name
      exact (Run.agrees_ofExcept resolve.same resolve.isGood).bind agree.judge
  | expression placed => exact (agree.evaluate placed isWithin).bind agree.judge
  | _ => exact Run.agrees_pure trivial

/-- Related contexts judge alike, if the rules that are chosen say the same. -/
theorem judgeBy (simulates : Simulates known related first second)
    (isRelated : related context other)
    (agree : machine.Agree stops known otherMachine)
    {choose otherChoose : Context Label → Value Label → Option (TruthRule Label)}
    {value : Value Label} (isWithin : value.Within known)
    (sameRule : (choose context value).map (· first.forest value) =
      (otherChoose other value).map (· second.forest value)) :
    (first.judgeBy choose context machine value).Agrees stops (fun _ => True)
      (second.judgeBy otherChoose other otherMachine value) := by
  simp only [World.judgeBy]
  cases ofFirst : choose context value with
  | none =>
      rw [ofFirst, Option.map_none, eq_comm, Option.map_eq_none_iff] at sameRule
      rw [sameRule]
      exact simulates.judgeByDefault isRelated agree isWithin
  | some rule =>
      rw [ofFirst, Option.map_some, eq_comm, Option.map_eq_some_iff] at sameRule
      obtain ⟨otherRule, ofSecond, sameTruth⟩ := sameRule
      simp only [ofSecond, sameTruth]
      exact Run.agrees_pure trivial

/-- Machines of related contexts agree, if their rules about truth do. -/
theorem machine_agree (simulates : Simulates known related first second)
    (rules : ∀ context other, related context other → ∀ value,
      value.Within known →
        (World.ruleFor context value).map (· first.forest value) =
          (World.ruleFor other value).map (· second.forest value))
    {steps others : Nat} (enough : steps = others ∧ stops ≠ .never ∨
      steps ≤ others ∧ stops = .earlier)
    (isRelated : related context other) :
    (first.machine steps context).Agree stops known
      (second.machine others other) := by
  rw [← World.machineBy_judgeValue, ← World.machineBy_judgeValue,
    World.judgeValue_eq, World.judgeValue_eq]
  refine simulates.machineBy_agree ?_ enough isRelated
  intro context other machine otherMachine isRelated agree value isWithin
  exact simulates.judgeBy isRelated agree isWithin
    (rules context other isRelated value isWithin)

/-- A world simulates itself in contexts that give the same answers, if host code
is given the same scripts there. -/
theorem of_sameAnswers (world : World Label)
    (same : ∀ context other, related context other → context.SameAnswers other)
    (bind : ∀ context other bindings, related context other →
      related (context.bind bindings) (other.bind bindings))
    (scripts : ∀ context other, related context other →
      world.host.SameScripts world.forest context other) :
    Simulates (fun _ => True) related world world where
  reads := ⟨fun _ _ => rfl, fun _ _ _ _ => trivial⟩
  answers context other isRelated := by
    have same := same context other isRelated
    have always (value : Value Label) : value.Within fun _ => True :=
      value.within_of_all fun _ => trivial
    exact
      { kind := same.kind
        math := same.math
        isFit := fun _ isWithin => isWithin
        convert := fun value target _ => same.convert _ value target
        converted := fun _ _ result _ _ => always result
        write := fun _ _ => rfl
        order := fun left right _ _ => same.order _ left right
        function := same.function
        functionWithin := fun _ callable _ =>
          callable.within_of_all fun _ => trivial
        resolve := fun name =>
          ⟨by simp only [Context.resolve, same.reference],
            fun value _ => always value⟩ }
  bind context other bindings isRelated _ := bind context other bindings isRelated
  body label context other arguments isRelated _ :=
    ⟨Script.within_of_all (fun _ => trivial)
        (Value.within_of_all fun _ => trivial) _,
      ((scripts context other isRelated).body label arguments).symm⟩
  rearrange label context other arguments isRelated _ :=
    ⟨Script.within_of_all (fun _ => trivial)
        (fun _ value _ => value.within_of_all fun _ => trivial) _,
      ((scripts context other isRelated).rearrange label arguments).symm⟩
  keeps label context other value isRelated _ :=
    ⟨Script.within_of_all (fun _ => trivial) (fun _ => trivial) _,
      ((scripts context other isRelated).keeps label value).symm⟩

/-- A world simulates itself in contexts of a property that scopes keep. -/
theorem self (world : World Label) (holds : Context Label → Prop)
    (keeps : ∀ context bindings, holds context → holds (context.bind bindings)) :
    Simulates (fun _ => True) (fun context other => context = other ∧ holds context)
      world world := by
  refine .of_sameAnswers world ?_ ?_ ?_
  · rintro context _ ⟨rfl, -⟩
    exact .refl context
  · rintro context _ bindings ⟨rfl, held⟩
    exact ⟨rfl, keeps context bindings held⟩
  · rintro context _ ⟨rfl, -⟩
    exact ⟨fun _ _ => rfl, fun _ _ => rfl, fun _ _ => rfl⟩

end Simulates

namespace World

/-- With more steps a machine goes on from where it was cut off, and does the same
where it was not. -/
theorem machine_agree_of_le (world : World Label) (context : Context Label)
    {steps others : Nat} (le : steps ≤ others) :
    (world.machine steps context).Agree .earlier (fun _ => True)
      (world.machine others context) :=
  (Simulates.self world (fun _ => True) fun _ _ held => held).machine_agree
    (by rintro _ _ ⟨rfl, -⟩ _ _; rfl) (.inr ⟨le, rfl⟩) ⟨rfl, trivial⟩

end World

end FormulaEngine
