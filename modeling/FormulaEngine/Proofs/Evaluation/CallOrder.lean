import FormulaEngine.Proofs.Context.Table
import FormulaEngine.Proofs.Evaluation.Node
import FormulaEngine.Proofs.Evaluation.Traversal
import FormulaEngine.Proofs.Evaluation.Truth
import FormulaEngine.Proofs.Expression.Session

/-!
# The order of calls

Where host code neither evaluates nor applies anything itself, an evaluation
enters host code at the calls of the formula and nowhere else.  It does so from
left to right, arguments before the call that takes them, once for every place at
which a call stands.  No operator skips an operand: the calls of an evaluation
that succeeds are all the calls there are.
-/

namespace FormulaEngine

variable {Label : Type}

/-- A call in a formula: the name of the function and the number of arguments. -/
structure CallSite where
  function : FunctionName
  count : Nat
  deriving DecidableEq, Repr

/-- The call that a shape makes over a number of children. -/
def Shape.site? (shape : Shape) (count : Nat) : Option CallSite :=
  match shape with
  | .call name => some ⟨name, count⟩
  | _ => none

namespace Tree

mutual

/-- The calls in a tree, left to right, each after those in its arguments. -/
def callSites : Tree → List CallSite
  | node shape children =>
      callSitesAmong children ++ (shape.site? children.length).toList

/-- The calls in a list of trees. -/
def callSitesAmong : List Tree → List CallSite
  | [] => []
  | tree :: trees => tree.callSites ++ callSitesAmong trees

end

theorem callSitesAmong_eq (trees : List Tree) :
    callSitesAmong trees = (trees.map callSites).flatten := by
  induction trees with
  | nil => rfl
  | cons tree trees ih => rw [callSitesAmong, ih, List.map_cons, List.flatten_cons]

end Tree

/-- A call of host code is made at a site: it is the function found there, with
as many arguments. -/
def CallSite.Enters (tables : BasicContext Label) (site : CallSite)
    (call : HostCall Label) : Prop :=
  ∃ declaration label,
    tables.function site.function = .ok (.host declaration label) ∧
      call.name = declaration.name ∧ call.arguments.length = site.count

/-- A script neither evaluates nor applies anything, also not by asking for the
truth of a formula, and does not end with a formula. -/
inductive Script.Quiet : Script Label (Value Label) → Prop
  | done {result : Except EvalError (Value Label)}
      (isEvaluated : ∀ value, result = .ok value → value.IsEvaluated) :
      Quiet (.done result)
  | judge {value : Value Label}
      {next : Except EvalError Bool → Script Label (Value Label)}
      (isEvaluated : value.IsEvaluated) (following : ∀ answer, Quiet (next answer)) :
      Quiet (.judge value next)

/-- Tables convert by the basic rules and hold no formula among the references. -/
structure BasicContext.HoldsValues (tables : BasicContext Label) : Prop where
  converter : tables.converter = .basic
  references : ∀ name value, tables.references.find? name = some value →
    value.IsEvaluated

/-- A shape is no lambda, and if it is a call, the function found in the tables is
host code that takes values and whose scripts are quiet. -/
def Shape.CallsQuietly (world : World Label) (tables : BasicContext Label) :
    Shape → Prop
  | .lambda _ => False
  | .call name => ∀ callable, tables.function name = .ok callable →
      ∃ declaration label, callable = .host declaration label ∧
        (∀ parameter ∈ declaration.parameters,
          parameter.flags.unevaluated = false) ∧
        ∀ arguments, (∀ argument ∈ arguments, Value.IsEvaluated argument) →
          (world.host.body label world.forest (.basic tables) arguments).Quiet
  | _ => True

section Conversion

variable {tables : BasicContext Label}

theorem BasicContext.HoldsValues.resolve (holds : tables.HoldsValues)
    {name : Reference} {value : Value Label}
    (found : (Context.basic tables).resolve name = .ok value) :
    value.IsEvaluated := by
  obtain ⟨held, isHeld, found⟩ := Attempt.of_bind found
  cases held with
  | none => cases found
  | some held =>
      cases found
      exact holds.references name _ (Except.ok.inj isHeld)

theorem BasicContext.HoldsValues.convertArgument (holds : tables.HoldsValues)
    {forest : Forest} {function : String} {parameter : Parameter}
    {value result : Value Label} (isEvaluated : value.IsEvaluated)
    (succeeds : (Context.basic tables).convertArgument forest function parameter
      value = .ok result) : result.IsEvaluated := by
  rw [Context.convertArgument_eq] at succeeds
  obtain ⟨found, isFound, fits⟩ := Attempt.of_bind succeeds
  have foundEvaluated : found.IsEvaluated := by
    unfold Context.dereference at isFound
    split at isFound
    · split at isFound
      · cases isFound; exact isEvaluated
      · exact holds.resolve isFound
    · cases isFound; exact isEvaluated
  unfold Context.fitArgument at fits
  split at fits
  · cases fits; exact foundEvaluated
  · have converted := Attempt.of_mapError fits
    simp only [Context.convert, Context.tables, holds.converter,
      Converter.basic] at converted
    split at converted
    next converted isConverted =>
      cases converted
      rcases Value.convert?_eq_or isConverted with rfl | ⟨isEvaluated, -⟩
      · exact foundEvaluated
      · exact isEvaluated
    next => cases converted

end Conversion

section Runs

variable {world : World Label} {tables : BasicContext Label}
  {context : Context Label} {machine : Machine Label}
  {enters : CallSite → HostCall Label → Prop}

theorem unary_traverses
    (judges : ∀ value, value.IsEvaluated →
      (machine.judge value).Traverses enters (fun _ => True) [])
    (op : UnaryOp) {operand : Value Label} (isEvaluated : operand.IsEvaluated) :
    (context.unary machine op operand).Traverses enters Value.IsEvaluated [] := by
  cases op with
  | negate =>
      exact Run.traverses_ofExcept fun _ succeeds =>
        (Context.isScalar_negate succeeds).isPlain.isEvaluated
  | not =>
      refine (judges operand isEvaluated).bind fun truth _ => ?_
      exact Run.traverses_pure (by simp [Value.IsEvaluated, Value.type])

theorem binary_traverses
    (judges : ∀ value, value.IsEvaluated →
      (machine.judge value).Traverses enters (fun _ => True) [])
    {forest : Forest} (op : BinaryOp) {left right : Value Label}
    (isLeft : left.IsEvaluated) (isRight : right.IsEvaluated) :
    (context.binary forest machine op left right).Traverses enters
      Value.IsEvaluated [] := by
  unfold Context.binary
  cases op.group with
  | arithmetic grouped =>
      exact Run.traverses_ofExcept fun _ succeeds =>
        (Context.isScalar_arithmetic succeeds).isPlain.isEvaluated
  | comparison relation =>
      exact Run.traverses_ofExcept fun _ succeeds =>
        (Context.isScalar_comparison succeeds).isPlain.isEvaluated
  | logical grouped =>
      simp only [Context.logical_eq]
      refine (Run.traverses_ofNumeric fun _ _ => trivial).bind
        fun operands (_ : True) => ?_
      cases operands with
      | some operands =>
          exact Run.traverses_ofExcept fun _ succeeds =>
            (Context.isScalar_of_numeral succeeds).isPlain.isEvaluated
      | none =>
          refine (judges left isLeft).bind fun leftTruth _ => ?_
          refine (judges right isRight).bind fun rightTruth _ => ?_
          exact Run.traverses_pure (by simp [Value.IsEvaluated, Value.type])

theorem Script.Quiet.run {script : Script Label (Value Label)}
    (quiet : script.Quiet)
    (judges : ∀ value, value.IsEvaluated →
      (machine.judge value).Traverses enters (fun _ => True) []) :
    (script.run machine).Traverses enters Value.IsEvaluated [] := by
  induction quiet with
  | done isEvaluated => exact Run.traverses_ofExcept isEvaluated
  | judge isEvaluated following ih => exact (judges _ isEvaluated).resume ih

/-- Asking for the truth of a value enters no host code. -/
theorem judge_traverses (holds : tables.HoldsValues) (steps : Nat)
    {value : Value Label} (isEvaluated : value.IsEvaluated) :
    ((world.machine steps (.basic tables)).judge value).Traverses enters
      (fun _ => True) [] := by
  induction steps generalizing value with
  | zero => exact Run.traverses_cutOff
  | succ steps ih =>
      simp only [World.machine, World.judgeValue_eq, World.judgeBy]
      split
      next rule _ => exact Run.traverses_pure trivial
      next =>
        cases value with
        | reference name =>
            exact (Run.traverses_ofExcept fun _ => holds.resolve).bind
              fun value isEvaluated => ih isEvaluated
        | expression placed => exact (isEvaluated rfl).elim
        | _ => exact Run.traverses_pure trivial

/-- Applying quiet host code enters it and nothing else. -/
theorem apply_traverses (holds : tables.HoldsValues) (steps : Nat)
    (site : CallSite) {declaration : Declaration} {label : Label}
    (found : tables.function site.function = .ok (.host declaration label))
    {arguments : List (Value Label)} (count : arguments.length = site.count)
    (quiet :
      (world.host.body label world.forest (.basic tables) arguments).Quiet) :
    ((world.machine steps (.basic tables)).apply (.host declaration label)
      arguments).Traverses (CallSite.Enters tables) Value.IsEvaluated [site] := by
  cases steps with
  | zero => exact Run.traverses_cutOff
  | succ steps =>
      have entered : CallSite.Enters tables site ⟨declaration.name, arguments⟩ :=
        ⟨declaration, label, found, rfl, count⟩
      exact (quiet.run fun _ => judge_traverses holds steps).after
        (.cons entered .nil)

theorem callSites_of_referenceName? (wellFormed : world.forest.WellFormed)
    {expression : Expression} {name : Reference}
    (named : world.forest.referenceName? expression = some name) :
    (world.forest.tree expression).callSites = [] := by
  rw [Forest.tree_eq wellFormed, ← Forest.children_node, ← Forest.shape_node,
    Forest.referenceName?_eq_some_iff.mp named]
  rfl

/-- Preparing arguments traverses the calls in them one after the other. -/
theorem prepare_traverses (wellFormed : world.forest.WellFormed)
    (holds : tables.HoldsValues) {callable : Callable Label}
    (takesValues : ∀ parameter ∈ callable.core.parameters,
      parameter.flags.unevaluated = false) {arguments : List Expression}
    (below : ∀ argument ∈ arguments, (machine.evaluate argument).Traverses enters
      Value.IsEvaluated (world.forest.tree argument).callSites) :
    ((Context.basic tables).prepare world.forest machine callable
      arguments).Traverses enters
      (fun values => (∀ value ∈ values, value.IsEvaluated) ∧
        values.length = arguments.length)
      (Tree.callSitesAmong (arguments.map world.forest.tree)) := by
  have finish (parameter : Parameter) (value : Value Label)
      (isEvaluated : value.IsEvaluated) :
      (.ofExcept ((Context.basic tables).convertArgument world.forest
        callable.core.displayName parameter value) :
        Run Label (Value Label)).Traverses enters Value.IsEvaluated [] :=
    Run.traverses_ofExcept fun _ => holds.convertArgument isEvaluated
  have prepared (parameter : Parameter)
      (member : parameter ∈ callable.core.parameters) (argument : Expression)
      (isArgument : argument ∈ arguments) :
      ((Context.basic tables).prepareArgument world.forest machine
        callable.core.displayName parameter argument).Traverses enters
        Value.IsEvaluated (world.forest.tree argument).callSites := by
    simp only [Context.prepareArgument, takesValues parameter member]
    cases named : world.forest.referenceName? argument with
    | some name =>
        rw [callSites_of_referenceName? wellFormed named]
        simp only
        split
        · exact (Run.traverses_ofExcept fun _ => holds.resolve).bind
            (finish parameter)
        · exact finish parameter _ (by simp [Value.IsEvaluated, Value.type])
    | none =>
        rw [← List.append_nil (Tree.callSites _)]
        exact (below argument isArgument).bind (finish parameter)
  rw [Tree.callSitesAmong_eq, List.map_map]
  refine (Run.traverses_forEach ?_).imp fun values collected =>
    ⟨collected.1, by simpa using collected.2⟩
  rw [List.forall₂_iff_get]
  refine ⟨by simp, fun index bound otherBound => ?_⟩
  have isArgument := List.getElem_mem (by simpa using otherBound :
    index < arguments.length)
  simp only [List.get_eq_getElem, List.getElem_mapIdx, List.getElem_map,
    Function.comp_apply]
  cases found : parameterAt? callable.core.parameters index with
  | some parameter =>
      exact prepared parameter (mem_of_parameterAt? found) _ isArgument
  | none => exact below _ isArgument

/-- An evaluation traverses the calls of its formula. -/
theorem evaluate_traverses (wellFormed : world.forest.WellFormed)
    (holds : tables.HoldsValues) (steps : Nat) {expression : Expression}
    (quiet : (world.forest.tree expression).All
      (Shape.CallsQuietly world tables)) :
    (world.evaluate steps (.basic tables) expression).Traverses
      (CallSite.Enters tables) Value.IsEvaluated
      (world.forest.tree expression).callSites := by
  induction steps generalizing expression with
  | zero => exact Run.traverses_cutOff
  | succ steps ih =>
      obtain ⟨here, below⟩ := (Forest.all_tree_iff wellFormed).mp quiet
      have judges (value : Value Label) (isEvaluated : value.IsEvaluated) :
          ((world.machine steps (.basic tables)).judge value).Traverses
            (CallSite.Enters tables) (fun _ => True) [] :=
        judge_traverses holds steps isEvaluated
      rw [Forest.tree_eq wellFormed, ← Forest.children_node, ← Forest.shape_node]
      change (world.evaluateNode (.basic tables)
        (world.machine steps (.basic tables))
        (world.forest.node expression)).Traverses _ _ _
      generalize world.forest.node expression = node at here below ⊢
      cases node with
      | value literal =>
          exact Run.traverses_ofNumeric fun _ succeeds =>
            (isScalar_literal succeeds).isPlain.isEvaluated
      | reference name =>
          refine (Run.traverses_ofExcept fun _ => holds.resolve).bind
            fun value isEvaluated => ?_
          cases value with
          | expression placed => exact (isEvaluated rfl).elim
          | _ => exact Run.traverses_pure isEvaluated
      | unary op operand =>
          have operandCalls := ih (below operand (by simp [Node.children]))
          simp only [Node.children, Node.shape, List.map_cons, List.map_nil,
            Tree.callSites, Tree.callSitesAmong, List.append_assoc]
          exact operandCalls.bind fun _ isEvaluated =>
            unary_traverses judges op isEvaluated
      | binary op left right =>
          have leftCalls := ih (below left (by simp [Node.children]))
          have rightCalls := ih (below right (by simp [Node.children]))
          simp only [Node.children, Node.shape, List.map_cons, List.map_nil,
            Tree.callSites, Tree.callSitesAmong, List.append_assoc]
          exact leftCalls.bind fun _ isLeft => rightCalls.bind fun _ isRight =>
            binary_traverses judges op isLeft isRight
      | lambda parameters body => exact here.elim
      | call name arguments =>
          -- The arguments enter host code before the function does.
          rw [World.evaluateNode_call]
          have registered (callable : Callable Label)
              (found : World.lookUp (.basic tables) name arguments.length =
                .ok callable) :
              (Context.basic tables).function name = .ok callable :=
            World.function_of_lookUp found
          refine (Run.traverses_ofExcept registered).bind fun callable found => ?_
          obtain ⟨declaration, label, rfl, takesValues, quietBody⟩ :=
            here callable found
          have takesValues : ∀ parameter ∈
              (Callable.host declaration label).core.parameters,
              parameter.flags.unevaluated = false := takesValues
          refine (prepare_traverses wellFormed holds takesValues
            fun argument member => ih (below argument member)).bind
              fun values prepared => ?_
          refine (apply_traverses holds steps ⟨name, _⟩ found ?_
            (quietBody values prepared.1)).noted _
          simp [prepared.2, Node.children]

/-- The right operand is evaluated whenever the left one has a value, and the
operator itself enters nothing. -/
theorem calls_binary (wellFormed : world.forest.WellFormed)
    (holds : tables.HoldsValues) (steps : Nat) {expression left right : Expression}
    {op : BinaryOp} (isBinary : world.forest.node expression =
      .binary op left right)
    (quiet : (world.forest.tree expression).All
      (Shape.CallsQuietly world tables)) {value : Value Label}
    (hasValue : (world.evaluate steps (.basic tables) left).outcome =
      .value value) :
    (world.evaluate (steps + 1) (.basic tables) expression).calls =
      (world.evaluate steps (.basic tables) left).calls ++
        (world.evaluate steps (.basic tables) right).calls := by
  have below := ((Forest.all_tree_iff wellFormed).mp quiet).2
  rw [isBinary] at below
  have leftCalls :=
    evaluate_traverses wellFormed holds steps (below left (by simp [Node.children]))
  have rightCalls :=
    evaluate_traverses wellFormed holds steps
      (below right (by simp [Node.children]))
  have unfolded : world.evaluate (steps + 1) (.basic tables) expression =
      (world.evaluate steps (.basic tables) left >>= fun left =>
        world.evaluate steps (.basic tables) right >>= fun right =>
          (Context.basic tables).binary world.forest
            (world.machine steps (.basic tables)) op left right) := by
    simp only [World.evaluate, World.machine, isBinary]
    rfl
  rw [unfolded]
  generalize world.evaluate steps (.basic tables) left = first
    at hasValue leftCalls ⊢
  generalize world.evaluate steps (.basic tables) right = second
    at rightCalls ⊢
  obtain ⟨leftOutcome, firstCalls⟩ := first
  cases hasValue
  obtain ⟨outcome, secondCalls⟩ := second
  cases outcome with
  | error error => rfl
  | cutOff => rfl
  | value other =>
      have isLeft := leftCalls.holds_of_value rfl
      have isRight := rightCalls.holds_of_value rfl
      have judges (value : Value Label) (isEvaluated : value.IsEvaluated) :
          ((world.machine steps (.basic tables)).judge value).Traverses
            (CallSite.Enters tables) (fun _ => True) [] :=
        judge_traverses holds steps isEvaluated
      have quietOperator : ((Context.basic tables).binary world.forest
          (world.machine steps (.basic tables)) op value other).calls = [] :=
        (binary_traverses judges op isLeft isRight).calls_eq_nil
      simp only [Bind.bind, Run.bind, Run.after, quietOperator, List.append_nil]

end Runs

/-- If an evaluation succeeds, the calls of host code are exactly those of the
formula, in order; if it does not, they are the first of these.  Where the left
operand of an operator has a value, the right one is evaluated too. -/
theorem World.calls_in_post_order {world : World Label}
    (wellFormed : world.forest.WellFormed) {tables : BasicContext Label}
    (holds : tables.HoldsValues) {expression : Expression}
    (quiet : (world.forest.tree expression).All
      (Shape.CallsQuietly world tables)) (steps : Nat) :
    (∀ value, (world.evaluate steps (.basic tables) expression).outcome =
        .value value →
      List.Forall₂ (CallSite.Enters tables)
        (world.forest.tree expression).callSites
        (world.evaluate steps (.basic tables) expression).calls) ∧
      (∃ entered, entered <+: (world.forest.tree expression).callSites ∧
        List.Forall₂ (CallSite.Enters tables) entered
          (world.evaluate steps (.basic tables) expression).calls) ∧
      (∀ op left right value,
        world.forest.node expression = .binary op left right →
          (world.evaluate steps (.basic tables) left).outcome = .value value →
            (world.evaluate (steps + 1) (.basic tables) expression).calls =
              (world.evaluate steps (.basic tables) left).calls ++
                (world.evaluate steps (.basic tables) right).calls) := by
  have traverses := evaluate_traverses wellFormed holds steps quiet
  refine ⟨fun value ends => traverses.all ends, traverses.entered, ?_⟩
  intro op left right value isBinary hasValue
  exact calls_binary wellFormed holds steps isBinary quiet hasValue

/-! ### A formula to evaluate -/

namespace Session

/-- A caller has built the conjunction of a call and another call that takes the
first one: the operands share a node. -/
def sharedCalls : Session :=
  let first := Expression.atRoot 0 ⟨0⟩
  start
    |>.operate (.build 0 (.call ⟨"first"⟩ []))
    |>.operate (.build 0 (.call ⟨"second"⟩ [first]))
    |>.operate (.build 0 (.binary .and first (.atRoot 0 ⟨1⟩)))

theorem reachable_sharedCalls : sharedCalls.Reachable := by
  unfold sharedCalls
  refine .move (.move (.move .start (.operate _ ?_)) (.operate _ ?_))
    (.operate _ ?_)
  all_goals decide +kernel

end Session

/-- Host code that affirms everything. -/
def affirmingHost : Host Unit :=
  .answering fun _ => .ok (.bool true)

/-- Tables with two functions of host code. -/
def affirmingTables : BasicContext Unit where
  functions := .ofList
    [(⟨"first"⟩, .host { name := ⟨"first"⟩, parameters := [] } ()),
      (⟨"second"⟩, .host
        { name := ⟨"second"⟩, parameters := [⟨⟨"item"⟩, .any, .required, {}⟩] } ())]

theorem calls_in_post_order_sharedCalls :
    let world : World Unit := ⟨Session.sharedCalls.forest, affirmingHost⟩
    let conjunction := Expression.atRoot 0 ⟨2⟩
    let run := world.evaluate 4 (.basic affirmingTables) conjunction
    run.outcome = .value (.bool true) ∧
      (world.forest.tree conjunction).callSites =
        [⟨⟨"first"⟩, 0⟩, ⟨⟨"first"⟩, 0⟩, ⟨⟨"second"⟩, 1⟩] ∧
      List.Forall₂ (CallSite.Enters affirmingTables)
        (world.forest.tree conjunction).callSites run.calls := by
  intro world conjunction run
  have holds : affirmingTables.HoldsValues :=
    ⟨rfl, by rintro name value ⟨⟩⟩
  have quietCall (name : FunctionName) :
      (Shape.call name).CallsQuietly world affirmingTables := by
    intro callable found
    have affirms (arguments : List (Value Unit)) :
        (world.host.body () world.forest (.basic affirmingTables)
          arguments).Quiet :=
      .done (by rintro value ⟨rfl⟩; simp [Value.IsEvaluated, Value.type])
    unfold BasicContext.function at found
    split at found
    next registered isRegistered =>
      cases found
      have member := Table.mem_of_find?_ofList isRegistered
      simp only [List.mem_cons, List.not_mem_nil, or_false, Prod.mk.injEq] at member
      rcases member with ⟨-, rfl⟩ | ⟨-, rfl⟩ <;>
        exact ⟨_, _, rfl, by simp, fun arguments _ => affirms arguments⟩
    next => cases found
  have tree : world.forest.tree conjunction =
      .node (.binary .and)
        [.node (.call ⟨"first"⟩) [],
          .node (.call ⟨"second"⟩) [.node (.call ⟨"first"⟩) []]] := rfl
  have quiet : (world.forest.tree conjunction).All
      (Shape.CallsQuietly world affirmingTables) := by
    rw [tree]
    simp only [Tree.all_node, List.forall_mem_cons, List.not_mem_nil,
      IsEmpty.forall_iff, implies_true, and_true]
    exact ⟨trivial, quietCall _, quietCall _, quietCall _⟩
  have wellFormed : world.forest.WellFormed :=
    Session.reachable_sharedCalls.valid.wellFormed
  have succeeds : run.outcome = .value (.bool true) := rfl
  have ordered := World.calls_in_post_order wellFormed holds quiet 4
  exact ⟨succeeds, by rw [tree]; rfl, ordered.1 _ succeeds⟩

end FormulaEngine
