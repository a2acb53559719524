import FormulaEngine.Proofs.Context.Table
import FormulaEngine.Proofs.Evaluation.Node
import FormulaEngine.Proofs.Evaluation.Truth
import FormulaEngine.Proofs.Expression.Session

/-!
# Substitution

To apply a lambda to constants is to evaluate its body with the constants written
in place of the parameters.  The two evaluations go on in different contexts: in
a scope over the calling context, and in the calling context itself.  They agree
step by step as long as no value can tell the contexts apart, that is, no
expression and no reference.
-/

namespace FormulaEngine

variable {Label : Type}

/-! ### Constants in place of parameters -/

namespace Literal

/-- The value of a literal as it is written. -/
def asValue : Literal → Value Label
  | bool value => .bool value
  | text value => .text value
  | number value => .number value

/-- A number is of a kind.  Other literals are of every kind. -/
def IsOfKind (kind : NumberKind) : Literal → Prop
  | number value => value.kind = kind
  | _ => True

theorem toValue_eq {kind : NumberKind} {literal : Literal}
    (isOfKind : literal.IsOfKind kind) :
    literal.toValue kind = .ok (literal.asValue : Value Label) := by
  cases literal with
  | number value =>
      simp only [toValue, Numeral.setKind_of_kind isOfKind]
      rfl
  | _ => rfl

end Literal

/-- The literal that is written in place of a shape. -/
def Shape.replacement? (replace : Reference → Option Literal) :
    Shape → Option Literal
  | .reference name => replace name
  | _ => none

namespace Tree

mutual

/-- Write literals in place of references. -/
def substitute (replace : Reference → Option Literal) : Tree → Tree
  | node shape children =>
      match shape.replacement? replace with
      | some literal => node (.value literal) []
      | none => node shape (substituteAll replace children)

/-- Write literals in place of references in all trees of a list. -/
def substituteAll (replace : Reference → Option Literal) : List Tree → List Tree
  | [] => []
  | tree :: trees => tree.substitute replace :: substituteAll replace trees

/-- The length of the longest way down from the root. -/
def height : Tree → Nat
  | node _ children => heightAbove children

/-- The height of a node over trees. -/
def heightAbove : List Tree → Nat
  | [] => 0
  | tree :: trees => max (tree.height + 1) (heightAbove trees)

end

theorem substituteAll_eq (replace : Reference → Option Literal)
    (trees : List Tree) :
    substituteAll replace trees = trees.map (substitute replace) := by
  induction trees with
  | nil => rfl
  | cons tree trees ih => rw [substituteAll, ih, List.map_cons]

theorem height_lt_of_mem {shape : Shape} {children : List Tree} {child : Tree}
    (member : child ∈ children) : child.height < (node shape children).height := by
  rw [height]
  induction children with
  | nil => cases member
  | cons tree trees ih =>
      rw [heightAbove]
      rcases List.mem_cons.mp member with rfl | member
      · omega
      · have := ih member
        omega

end Tree

namespace Forest

variable {forest : Forest} {expression placed : Expression}
  {replace : Reference → Option Literal}

/-- An expression is what another one becomes when literals are written in place
of references. -/
inductive Substitutes (forest : Forest) (replace : Reference → Option Literal)
    (expression placed : Expression) : Prop
  | replaced {name : Reference} {literal : Literal}
      (isReference : forest.node expression = .reference name)
      (isReplaced : replace name = some literal)
      (isLiteral : forest.node placed = .value literal)
  | kept (free : ∀ name, forest.node expression = .reference name →
        replace name = none)
      (corresponds : (forest.node expression).Corresponds
        (fun child image => child ∈ (forest.node expression).children ∧
          forest.tree image = (forest.tree child).substitute replace)
        (forest.node placed))

theorem substitutes_of_tree_eq (wellFormed : forest.WellFormed)
    (same : forest.tree placed = (forest.tree expression).substitute replace) :
    forest.Substitutes replace expression placed := by
  rw [tree_eq wellFormed expression, Tree.substitute] at same
  cases found : (forest.shape expression).replacement? replace with
  | some literal =>
      rw [found, tree_eq wellFormed placed] at same
      have shape := (Tree.node.inj same).1
      rw [← shape_node] at found shape
      obtain ⟨name, isReference⟩ : ∃ name, forest.node expression =
          .reference name := by
        cases isNode : forest.node expression <;> rw [isNode] at found <;>
          first | exact ⟨_, rfl⟩ | cases found
      obtain ⟨other, isLiteral⟩ : ∃ other, forest.node placed =
          .value other := by
        cases isNode : forest.node placed <;> rw [isNode] at shape <;>
          first | exact ⟨_, rfl⟩ | cases shape
      rw [isReference] at found
      rw [isLiteral] at shape
      cases shape
      exact .replaced isReference found isLiteral
  | none =>
      rw [found] at same
      refine .kept (fun name isReference => ?_) ?_
      · rw [← shape_node, isReference] at found
        exact found
      · apply corresponds_of_trees wellFormed same
        rw [Tree.substituteAll_eq, List.map_map, List.forall₂_map_right_iff,
          ← children_node]
        exact List.forall₂_same.mpr fun child member image isSame =>
          ⟨member, isSame⟩

theorem height_lt_of_mem (wellFormed : forest.WellFormed)
    (isChild : placed ∈ (forest.node expression).children) :
    (forest.tree placed).height < (forest.tree expression).height := by
  rw [tree_eq wellFormed expression, ← children_node]
  exact Tree.height_lt_of_mem (List.mem_map_of_mem isChild)

end Forest

/-! ### What cannot tell a scope from its parent -/

theorem Literal.isPlain_asValue (literal : Literal) :
    (literal.asValue : Value Label).IsPlain := by
  cases literal <;> simp [Value.IsPlain, Value.type, asValue]

/-- A parameter takes a truth value, a text or a number. -/
def Parameter.TakesConstants (parameter : Parameter) : Prop :=
  parameter.flags.unevaluated = false ∧
    parameter.type ∈ [.bool, .text, .number, .integer, .bigInteger]

namespace Parameter.TakesConstants

variable {parameter : Parameter}

theorem takesReference_eq (takes : parameter.TakesConstants) :
    parameter.type.takesReference = false := by
  cases isType : parameter.type <;>
    simp_all [TakesConstants, ValueType.takesReference]

theorem ne_of_takesReference (takes : parameter.TakesConstants) {type : ValueType}
    (takesReference : type.takesReference = true) : parameter.type ≠ type := by
  rintro rfl
  rw [takes.takesReference_eq] at takesReference
  cases takesReference

end Parameter.TakesConstants

/-- A label of host code answers from its arguments alone, with plain values. -/
def Host.AnswersPlainly (host : Host Label) (forest : Forest) (label : Label) :
    Prop :=
  ∃ answer : List (Value Label) → Except EvalError (Value Label),
    (∀ context arguments,
      host.body label forest context arguments = .done (answer arguments)) ∧
    ∀ arguments value, answer arguments = .ok value → value.IsPlain

theorem Host.answersPlainly_answering
    {answer : List (Value Label) → Except EvalError (Value Label)}
    (forest : Forest) (label : Label)
    (plain : ∀ arguments value, answer arguments = .ok value → value.IsPlain) :
    (Host.answering answer).AnswersPlainly forest label :=
  ⟨answer, fun _ _ => rfl, plain⟩

/-- A shape is no lambda, and if it is a call, the function found in the tables is
host code that answers plainly and takes constants. -/
def Shape.CallsPlainly (world : World Label) (tables : BasicContext Label) :
    Shape → Prop
  | .lambda _ => False
  | .call name => ∀ callable, tables.function name = .ok callable →
      ∃ declaration label, callable = .host declaration label ∧
        (∀ parameter ∈ declaration.parameters, parameter.TakesConstants) ∧
        world.host.AnswersPlainly world.forest label
  | _ => True

/-- Local bindings over tables bind names to constants of the kind of numbers
there, and the tables hold plain values. -/
structure Binds (tables : BasicContext Label)
    (bindings : Table Reference (Value Label))
    (replace : Reference → Option Literal) : Prop where
  find : ∀ name, bindings.find? name = (replace name).map Literal.asValue
  kind : ∀ name literal, replace name = some literal →
    literal.IsOfKind tables.config.kind
  plain : ∀ name value, tables.references.find? name = some value →
    value.IsPlain

namespace Binds

variable {tables : BasicContext Label}
  {bindings : Table Reference (Value Label)}
  {replace : Reference → Option Literal}

theorem resolve_bound (binds : Binds tables bindings replace) {name : Reference}
    {literal : Literal} (isReplaced : replace name = some literal) :
    (Context.scope (.basic tables) bindings).resolve name =
      .ok literal.asValue := by
  have found := binds.find name
  rw [isReplaced] at found
  cases literal <;>
    simp only [Context.resolve, Context.reference, found, Option.map_some,
      Literal.asValue] <;> rfl

theorem resolve_free (binds : Binds tables bindings replace) {name : Reference}
    (free : replace name = none) :
    ResolveAlike Value.IsPlain (Context.scope (.basic tables) bindings)
      (.basic tables) name := by
  have found := binds.find name
  rw [free] at found
  have same : (Context.scope (.basic tables) bindings).resolve name =
      (Context.basic tables).resolve name := by
    simp only [Context.resolve, Context.reference, found, Option.map_none]
  refine ⟨same, fun value resolved => ?_⟩
  rw [same] at resolved
  obtain ⟨held, isHeld, resolved⟩ := Attempt.of_bind resolved
  cases held with
  | none => cases resolved
  | some held =>
      cases resolved
      exact binds.plain name _ (Except.ok.inj isHeld)

theorem function_eq (binds : Binds tables bindings replace)
    (name : FunctionName) :
    (Context.scope (.basic tables) bindings).function name =
      tables.function name := by
  simp only [Context.function, binds.find]
  cases replace name.toReference with
  | none => rfl
  | some literal => cases literal <;> rfl

/-- A scope converts and compares as its parent does. -/
theorem convertAlike (forest : Forest) (tables : BasicContext Label)
    (bindings : Table Reference (Value Label)) :
    ConvertAlike Value.IsPlain (fun _ => True) forest
      (.scope (.basic tables) bindings) forest (.basic tables) where
  kind := rfl
  math := rfl
  isFit _ _ := trivial
  convert _ _ _ := rfl
  converted _ _ _ _ _ := trivial
  write _ _ := rfl
  order _ _ _ _ := rfl

theorem operateAlike (world : World Label) (tables : BasicContext Label)
    (bindings : Table Reference (Value Label)) (steps : Nat) :
    OperateAlike .never Value.IsPlain world.forest
      (.scope (.basic tables) bindings)
      (world.machine (steps + 1) (.scope (.basic tables) bindings)) world.forest
      (.basic tables) (world.machine (steps + 1) (.basic tables)) :=
  (convertAlike world.forest tables bindings).operate fun _ isPlain => by
    rw [world.judge_scope _ bindings _ isPlain, world.judge_of_isPlain _ _ isPlain]
    exact Run.agrees_pure trivial

/-- Host code that answers plainly answers in a scope as in its parent. -/
theorem apply {world : World Label} {label : Label}
    (answers : world.host.AnswersPlainly world.forest label)
    (tables : BasicContext Label)
    (bindings : Table Reference (Value Label)) (steps : Nat)
    (declaration : Declaration) (arguments : List (Value Label)) :
    ((world.machine (steps + 1) (.scope (.basic tables) bindings)).apply
      (.host declaration label) arguments).Agrees .never Value.IsPlain
      ((world.machine (steps + 1) (.basic tables)).apply
        (.host declaration label) arguments) := by
  obtain ⟨answer, same, isPlain⟩ := answers
  simp only [World.machine, World.applyCallable, same]
  exact (Run.agrees_ofExcept rfl (isPlain arguments)).after _

theorem evaluateNode_constant (binds : Binds tables bindings replace)
    {world : World Label} {machine : Machine Label} {name : Reference}
    {literal : Literal} (isReplaced : replace name = some literal) :
    world.evaluateNode (.basic tables) machine (.value literal) =
      pure literal.asValue :=
  congrArg Run.ofNumeric
    (Literal.toValue_eq (binds.kind name literal isReplaced))

theorem evaluateNode_bound (binds : Binds tables bindings replace)
    {world : World Label} {machine : Machine Label} {name : Reference}
    {literal : Literal} (isReplaced : replace name = some literal) :
    world.evaluateNode (.scope (.basic tables) bindings) machine
      (.reference name) = pure literal.asValue := by
  simp only [World.evaluateNode, binds.resolve_bound isReplaced]
  cases literal <;> rfl

/-- A bound name is converted as the constant that it stands for. -/
theorem convertArgument_bound (binds : Binds tables bindings replace)
    {name : Reference} {literal : Literal}
    (isReplaced : replace name = some literal) (forest : Forest)
    (function : String) {parameter : Parameter}
    (resolved : parameter.type.takesReference = false) :
    (Context.scope (.basic tables) bindings).convertArgument forest function
        parameter (.reference name) =
      (Context.scope (.basic tables) bindings).convertArgument forest function
        parameter literal.asValue := by
  rw [Context.convertArgument_eq, Context.convertArgument_eq]
  simp only [Context.dereference, resolved, binds.resolve_bound isReplaced]
  cases literal <;> rfl

/-- A constant that is written in place of a bound name is prepared as the name
is, with a step left to evaluate it. -/
theorem prepareArgument (binds : Binds tables bindings replace)
    {world : World Label} {steps : Nat} (function : String)
    {parameter : Parameter} (takes : parameter.TakesConstants)
    {argument image : Expression}
    (substitutes : world.forest.Substitutes replace argument image)
    (evaluates : (world.evaluate (steps + 1) (.scope (.basic tables) bindings)
        argument).Agrees .never Value.IsPlain
      (world.evaluate (steps + 1) (.basic tables) image)) :
    ((Context.scope (.basic tables) bindings).prepareArgument world.forest
      (world.machine (steps + 1) (.scope (.basic tables) bindings)) function
      parameter argument).Agrees .never (fun _ => True)
      ((Context.basic tables).prepareArgument world.forest
        (world.machine (steps + 1) (.basic tables)) function parameter
          image) := by
  have evaluated := takes.1
  have resolved := takes.takesReference_eq
  have alike := convertAlike world.forest tables bindings
  cases substitutes with
  | kept free corresponds =>
      refine Context.prepareArgument_agrees alike function
        corresponds.referenceName?_eq (fun name named => ?_)
        (fun name isPlain => (isPlain.2 rfl).elim) (by simp [evaluated]) evaluates
      have isReference := Forest.referenceName?_eq_some_iff.mp named
      exact ⟨.reference resolved, binds.resolve_free (free name isReference)⟩
  | @replaced name literal isReference isReplaced isLiteral =>
      -- On one side a name is converted, on the other a literal is evaluated.
      have finishes := Context.convertArgument_alike alike function
        (.good (literal.isPlain_asValue) : Context.Takes Value.IsPlain parameter
          (literal.asValue : Value Label)) (by cases literal <;> rintro _ ⟨⟩)
      have constantValue : (world.machine (steps + 1) (.basic tables)).evaluate
          image = pure literal.asValue := by
        simp only [World.machine, isLiteral]
        exact binds.evaluateNode_constant isReplaced
      have named : world.forest.referenceName? argument = some name :=
        Forest.referenceName?_eq_some_iff.mpr isReference
      have unnamed : world.forest.referenceName? image = none := by
        rw [Forest.referenceName?_eq, isLiteral]
      have bound := binds.resolve_bound isReplaced
      have first : (Context.scope (.basic tables) bindings).prepareArgument
          world.forest
          (world.machine (steps + 1) (.scope (.basic tables) bindings)) function
          parameter argument = .ofExcept ((Context.scope (.basic tables)
            bindings).convertArgument world.forest function parameter
              literal.asValue) := by
        simp only [Context.prepareArgument, named, evaluated, bound,
          binds.convertArgument_bound isReplaced world.forest function resolved]
        split <;> rfl
      have second : (Context.basic tables).prepareArgument world.forest
          (world.machine (steps + 1) (.basic tables)) function parameter image =
          .ofExcept ((Context.basic tables).convertArgument world.forest function
            parameter literal.asValue) := by
        simp only [Context.prepareArgument, unnamed, evaluated, constantValue]
        rfl
      rw [first, second]
      exact Run.agrees_ofExcept finishes.1 finishes.2

theorem prepare (binds : Binds tables bindings replace) {world : World Label}
    {steps : Nat} (callable : Callable Label)
    (takes : ∀ parameter ∈ callable.core.parameters, parameter.TakesConstants)
    {arguments others : List Expression}
    (below : List.Forall₂ (fun argument image =>
      world.forest.Substitutes replace argument image ∧
      (world.evaluate (steps + 1) (.scope (.basic tables) bindings)
          argument).Agrees .never Value.IsPlain
        (world.evaluate (steps + 1) (.basic tables) image)) arguments others) :
    ((Context.scope (.basic tables) bindings).prepare world.forest
      (world.machine (steps + 1) (.scope (.basic tables) bindings)) callable
      arguments).Agrees .never (fun values => ∀ value ∈ values, True)
      ((Context.basic tables).prepare world.forest
        (world.machine (steps + 1) (.basic tables)) callable others) := by
  refine Context.prepare_agrees below ?_ ?_
  · rintro parameter member argument image ⟨substitutes, evaluates⟩
    exact binds.prepareArgument _ (takes parameter member) substitutes evaluates
  · rintro argument image ⟨-, evaluates⟩
    exact evaluates.imp fun _ _ => trivial

/-- An expression evaluates in a scope as what it becomes by substitution does in
the parent, and both evaluations end. -/
theorem evaluate (binds : Binds tables bindings replace) {world : World Label}
    (wellFormed : world.forest.WellFormed) (steps : Nat)
    {expression placed : Expression}
    (same : world.forest.tree placed =
      (world.forest.tree expression).substitute replace)
    (plain : (world.forest.tree expression).All
      (Shape.CallsPlainly world tables))
    (enough : (world.forest.tree expression).height + 1 < steps) :
    (world.evaluate steps (.scope (.basic tables) bindings)
      expression).Agrees .never Value.IsPlain
      (world.evaluate steps (.basic tables) placed) := by
  induction steps generalizing expression placed with
  | zero => omega
  | succ remaining ih =>
      -- Besides the steps down the tree, one is left to judge and to apply.
      obtain ⟨steps, rfl⟩ : ∃ steps, remaining = steps + 1 :=
        ⟨remaining - 1, by omega⟩
      obtain ⟨here, below⟩ := (Forest.all_tree_iff wellFormed).mp plain
      have lower (child : Expression)
          (isChild : child ∈ (world.forest.node expression).children) :
          (world.forest.tree child).height + 1 < steps + 1 := by
        have := Forest.height_lt_of_mem wellFormed isChild
        omega
      have scalar (value : Value Label) (isScalar : value.IsScalar) :
          value.IsPlain := isScalar.isPlain
      have alike := operateAlike world tables bindings steps
      change (world.evaluateNode _ _ (world.forest.node expression)).Agrees _ _
        (world.evaluateNode _ _ (world.forest.node placed))
      cases Forest.substitutes_of_tree_eq wellFormed same with
      | replaced isReference isReplaced isLiteral =>
          rw [isReference, isLiteral, binds.evaluateNode_constant isReplaced,
            binds.evaluateNode_bound isReplaced]
          exact Run.agrees_pure (Literal.isPlain_asValue _)
      | kept free corresponds =>
          generalize world.forest.node expression = first
            at here below lower free corresponds ⊢
          generalize world.forest.node placed = second at corresponds ⊢
          cases corresponds with
          | value literal =>
              exact World.evaluateNode_value_agrees alike.kind scalar literal
          | reference name =>
              exact World.evaluateNode_reference_agrees
                (binds.resolve_free (free name rfl))
                fun _ isPlain => (isPlain.1 rfl).elim
          | unary op operand =>
              exact World.evaluateNode_unary_agrees alike scalar op
                (ih operand.2 (below _ operand.1) (lower _ operand.1))
          | binary op left right =>
              exact World.evaluateNode_binary_agrees alike scalar op
                (ih left.2 (below _ left.1) (lower _ left.1))
                (ih right.2 (below _ right.1) (lower _ right.1))
          | lambda parameters body => exact here.elim
          | call name arguments =>
              have host (callable : Callable Label)
                  (found : (Context.scope (.basic tables) bindings).function name =
                    .ok callable) :
                  ∃ declaration label, callable = .host declaration label ∧
                    (∀ parameter ∈ declaration.parameters,
                      parameter.TakesConstants) ∧
                    world.host.AnswersPlainly world.forest label :=
                here callable (binds.function_eq name ▸ found)
              refine World.evaluateNode_call_agrees (binds.function_eq name)
                arguments.length_eq (fun callable found => ?prepared)
                fun callable values found (_ : ∀ value ∈ values, True) => ?applied
              case prepared =>
                obtain ⟨declaration, label, rfl, takes, -⟩ := host callable found
                refine binds.prepare (.host declaration label) takes
                  (arguments.imp ?_)
                rintro argument image ⟨isArgument, isSame⟩
                exact ⟨Forest.substitutes_of_tree_eq wellFormed isSame,
                  ih isSame (below _ isArgument) (lower _ isArgument)⟩
              case applied =>
                obtain ⟨declaration, label, rfl, -, answers⟩ := host callable found
                exact apply answers tables bindings steps declaration values

end Binds

/-! ### Lambdas -/

/-- The constants of parameters by name. -/
def replacement (parameters : List Parameter) (literals : List Literal)
    (name : Reference) : Option Literal :=
  ((parameters.map (·.name.toReference)).zip literals).lookup name

theorem lookup_zip_map {Key First Second : Type} [BEq Key]
    (change : First → Second) (keys : List Key) (entries : List First)
    (key : Key) :
    (keys.zip (entries.map change)).lookup key =
      ((keys.zip entries).lookup key).map change := by
  induction keys generalizing entries with
  | nil => rfl
  | cons first keys ih =>
      cases entries with
      | nil => rfl
      | cons entry entries =>
          simp only [List.map_cons, List.zip_cons_cons, List.lookup_cons, ih]
          cases key == first <;> rfl

/-- As many arguments as there are required parameters are accepted. -/
theorem Callable.checkCount_lambda {parameters : List Parameter}
    (required : ∀ parameter ∈ parameters, parameter.cardinality = .required)
    (body : Expression) :
    (lambda parameters body : Callable Label).checkCount parameters.length =
      .ok () := by
  have single (parameter : Parameter) (member : parameter ∈ parameters) :
      parameter.isVariadic = false := by
    simp [Parameter.isVariadic, required parameter member]
  have nowhere : parameters.dropLast.find? Parameter.isVariadic = none := by
    rw [List.find?_eq_none]
    intro parameter member
    simp [single parameter (List.mem_of_mem_dropLast member)]
  have all : parameters.countP (·.cardinality == .required) =
      parameters.length :=
    List.countP_eq_length.mpr fun parameter member => by
      simp [required parameter member]
  have bounded : parameters.any Parameter.isVariadic = false := by
    rw [List.any_eq_false]
    intro parameter member
    simp [single parameter member]
  simp [checkCount, Callable.parameters, Arity.of, nowhere, all, bounded,
    Arity.accepts]

theorem binds_replacement {tables : BasicContext Label}
    {parameters : List Parameter} {literals : List Literal}
    (distinct : (parameters.map Parameter.name).Nodup)
    (count : literals.length = parameters.length)
    (kinds : ∀ literal ∈ literals, literal.IsOfKind tables.config.kind)
    (plain : ∀ name value, tables.references.find? name = some value →
      value.IsPlain) :
    Binds tables
      (.ofList ((parameters.map (·.name.toReference)).zip
        (literals.map Literal.asValue)))
      (replacement parameters literals) where
  find name := by
    rw [Table.find?_ofList_of_nodup, lookup_zip_map, replacement]
    rw [List.map_fst_zip (by simp [count])]
    have names := distinct.map ParameterName.toReference_injective
    rw [List.map_map] at names
    exact names
  kind name literal isReplaced := by
    obtain ⟨before, after, isSplit, -⟩ := List.lookup_eq_some_iff.mp isReplaced
    have member : (name, literal) ∈
        (parameters.map (·.name.toReference)).zip literals := by
      simp [isSplit]
    exact kinds literal (List.of_mem_zip member).2
  plain := plain

/-- Applying a lambda to constants is evaluating its body with the constants
written in place of the parameters, and that comes to an end. -/
theorem World.apply_lambda_eq_evaluate {world : World Label}
    (wellFormed : world.forest.WellFormed) {tables : BasicContext Label}
    (plain : ∀ name value, tables.references.find? name = some value →
      value.IsPlain)
    {parameters : List Parameter}
    (required : ∀ parameter ∈ parameters, parameter.cardinality = .required)
    (distinct : (parameters.map Parameter.name).Nodup)
    {literals : List Literal} (count : literals.length = parameters.length)
    (kinds : ∀ literal ∈ literals, literal.IsOfKind tables.config.kind)
    {body replaced : Expression}
    (calls : (world.forest.tree body).All (Shape.CallsPlainly world tables))
    (substituted : world.forest.tree replaced =
      (world.forest.tree body).substitute (replacement parameters literals))
    {steps : Nat} (enough : (world.forest.tree body).height + 1 < steps) :
    (world.machine (steps + 1) (.basic tables)).apply (.lambda parameters body)
          (literals.map Literal.asValue) =
        world.evaluate steps (.basic tables) replaced ∧
      (world.evaluate steps (.basic tables) replaced).outcome ≠ .cutOff := by
  have binds := binds_replacement distinct count kinds plain
  have accepted : (Callable.lambda parameters body : Callable Label).checkCount
      (literals.map Literal.asValue : List (Value Label)).length = .ok () := by
    rw [List.length_map, count]
    exact Callable.checkCount_lambda required body
  have agrees := binds.evaluate wellFormed steps substituted calls enough
  have same := agrees.eq nofun
  rw [← same]
  simp only [machine, applyCallable, accepted]
  exact ⟨rfl, agrees.ends⟩

namespace Session

/-- A caller has built the conjunction of a name with the check of the name, and
the same with a constant in place of the name. -/
def checkedName : Session :=
  start
    |>.operate (.build 0 (.reference ⟨"x"⟩))
    |>.operate (.build 0 (.call ⟨"check"⟩ [.atRoot 0 ⟨0⟩]))
    |>.operate (.build 0 (.binary .and (.atRoot 0 ⟨0⟩) (.atRoot 0 ⟨1⟩)))
    |>.operate (.build 0 (.value (.bool true)))
    |>.operate (.build 0 (.call ⟨"check"⟩ [.atRoot 0 ⟨3⟩]))
    |>.operate (.build 0 (.binary .and (.atRoot 0 ⟨3⟩) (.atRoot 0 ⟨4⟩)))

theorem reachable_checkedName : checkedName.Reachable := by
  unfold checkedName
  refine .move (.move (.move (.move (.move (.move .start (.operate _ ?_))
    (.operate _ ?_)) (.operate _ ?_)) (.operate _ ?_)) (.operate _ ?_))
    (.operate _ ?_)
  all_goals decide +kernel

end Session

/-- Host code that denies everything. -/
def denyingHost : Host Unit :=
  .answering fun _ => .ok (.bool false)

/-- Tables with a check in host code. -/
def checkTables : BasicContext Unit where
  functions := .ofList [(⟨"check"⟩, .host
    { name := ⟨"check"⟩, parameters := [⟨⟨"item"⟩, .bool, .required, {}⟩] } ())]

theorem apply_lambda_eq_evaluate_checkedName :
    let world : World Unit := ⟨Session.checkedName.forest, denyingHost⟩
    let parameters := [⟨⟨"x"⟩, .any, .required, {}⟩]
    let body := Expression.atRoot 0 ⟨2⟩
    let replaced := Expression.atRoot 0 ⟨5⟩
    (world.machine 5 (.basic checkTables)).apply (.lambda parameters body)
        [.bool true] = world.evaluate 4 (.basic checkTables) replaced ∧
      (world.evaluate 4 (.basic checkTables) replaced).outcome =
        .value (.bool false) := by
  intro world parameters body replaced
  have calls : (world.forest.tree body).All
      (Shape.CallsPlainly world checkTables) := by
    have tree : world.forest.tree body =
        .node (.binary .and) [.node (.reference ⟨"x"⟩) [],
          .node (.call ⟨"check"⟩) [.node (.reference ⟨"x"⟩) []]] := rfl
    have denies : denyingHost.AnswersPlainly world.forest () :=
      Host.answersPlainly_answering _ _
        (by rintro _ _ ⟨rfl⟩; simp [Value.IsPlain, Value.type])
    rw [tree]
    simp only [Tree.all_node, List.forall_mem_cons, List.not_mem_nil,
      IsEmpty.forall_iff, implies_true, and_true]
    refine ⟨trivial, trivial, ?_, trivial⟩
    rintro callable ⟨rfl⟩
    exact ⟨_, _, rfl, by simp [Parameter.TakesConstants], denies⟩
  have substituted : world.forest.tree replaced =
      (world.forest.tree body).substitute
        (replacement parameters [.bool true]) := rfl
  have wellFormed : world.forest.WellFormed :=
    Session.reachable_checkedName.valid.wellFormed
  exact ⟨(World.apply_lambda_eq_evaluate wellFormed (by rintro name value ⟨⟩)
    (by simp [parameters]) (by simp [parameters]) rfl (by simp [Literal.IsOfKind])
    calls substituted (by decide)).1, rfl⟩

end FormulaEngine
