import FormulaEngine.Proofs.Evaluation.Preparation
import FormulaEngine.Proofs.Evaluation.SameTree
import FormulaEngine.Proofs.Evaluation.Shadowing

/-!
# The arguments that a body sees

Applying a lambda to an accepted number of arguments binds its parameters to the
arguments, one to one from the left.  So an argument at the position of a parameter
is bound to the parameter that it was prepared for, and a body that refers to this
parameter yields it.  A variable parameter at the end is bound to the first of its
arguments; the others are prepared for it too, but a name is bound to one value,
and no body sees them.
-/

namespace FormulaEngine

variable {Label : Type}

/-- A forest has room for a reference of any name, in an arena of its own. -/
theorem Forest.exists_reference (forest : Forest) (name : Reference) :
    ∃ grown : Forest, forest.Extends grown ∧
      ∃ expression, grown.node expression = .reference name := by
  let fresh : Arena := ⟨#[.reference name], #[], #[]⟩
  refine ⟨forest.put forest.arenas.size fresh, fun index => ?_,
    .atRoot forest.arenas.size ⟨0⟩, ?_⟩
  · by_cases isFresh : index = forest.arenas.size
    · subst isFresh
      have unused : forest.arena forest.arenas.size = .empty := by simp [arena]
      rw [arena_put_same, unused]
      exact ⟨List.nil_prefix, List.nil_prefix, List.nil_prefix⟩
    · rw [arena_put_other forest fresh isFresh]
      exact .refl _
  · simp only [node, Expression.atRoot, arena_put_same]
    rfl

namespace World

variable {parameters : List Parameter} {arguments : List (Value Label)}
  {index : Nat}

/-! ### What is bound -/

theorem nodup_parameterNames (distinct : (parameters.map Parameter.name).Nodup) :
    (parameterNames parameters).Nodup := by
  have names := distinct.map ParameterName.toReference_injective
  rwa [List.map_map] at names

/-- A parameter is bound to the argument at its position. -/
theorem find?_bindingsOf_of_getElem?
    (distinct : (parameters.map Parameter.name).Nodup) {parameter : Parameter}
    {value : Value Label} (stands : parameters[index]? = some parameter)
    (given : arguments[index]? = some value) :
    (bindingsOf parameters arguments).find? parameter.name.toReference =
      some value := by
  refine Table.find?_ofList_of_mem ?_ ?_
  · rw [List.zip_eq_zip_take_min, List.map_fst_zip (by simp)]
    exact (nodup_parameterNames distinct).sublist (List.take_sublist _ _)
  · refine List.mem_of_getElem? (i := index) ?_
    rw [List.getElem?_zip_eq_some, parameterNames, List.getElem?_map, stands]
    exact ⟨rfl, given⟩

/-- Arguments beyond the parameters are not bound. -/
theorem scopeOf_set_of_le (context : Context Label)
    (beyond : parameters.length ≤ index) (seen : Value Label) :
    scopeOf context parameters (arguments.set index seen) =
      scopeOf context parameters arguments := by
  have same : (arguments.set index seen).take parameters.length =
      arguments.take parameters.length := List.take_set_of_le beyond
  have bound (values : List (Value Label)) :
      (parameterNames parameters).zip values =
        (parameterNames parameters).zip (values.take parameters.length) :=
    calc (parameterNames parameters).zip values
        = ((parameterNames parameters).zip values).take parameters.length :=
          (List.take_of_length_le (by simp [parameterNames])).symm
      _ = ((parameterNames parameters).take parameters.length).zip
            (values.take parameters.length) := List.take_zipWith
      _ = (parameterNames parameters).zip (values.take parameters.length) := by
          rw [List.take_of_length_le (by simp [parameterNames])]
  unfold scopeOf
  exact congrArg context.bind ((bound _).trans (same ▸ (bound arguments).symm))

/-! ### What a body sees -/

/-- Some body yields whatever plain value is given as the argument at an index. -/
def ShowsArgument (world : World Label) (context : Context Label)
    (parameters : List Parameter) (arguments : List (Value Label)) (index : Nat) :
    Prop :=
  ∃ grown : Forest, world.forest.Extends grown ∧ ∃ body, ∀ steps seen,
    seen.IsPlain →
      (((⟨grown, world.host⟩ : World Label).machine (steps + 2) context).apply
        (.lambda parameters body) (arguments.set index seen)).outcome = .value seen

/-- No body does anything else when another value is given as the argument at an
index. -/
def IgnoresArgument (context : Context Label) (parameters : List Parameter)
    (arguments : List (Value Label)) (index : Nat) : Prop :=
  ∀ (world : World Label) (steps : Nat) (body : Expression) (seen : Value Label),
    (world.machine steps context).apply (.lambda parameters body)
        (arguments.set index seen) =
      (world.machine steps context).apply (.lambda parameters body) arguments

theorem apply_lambda_of_accepted (world : World Label) (context : Context Label)
    (steps : Nat) (body : Expression)
    (accepted : (Callable.lambda parameters body : Callable Label).checkCount
      arguments.length = .ok ()) :
    (world.machine (steps + 1) context).apply (.lambda parameters body) arguments =
      world.evaluate steps (scopeOf context parameters arguments) body := by
  simp only [machine, applyCallable, accepted]
  rfl

theorem ignoresArgument_of_le (context : Context Label)
    (beyond : parameters.length ≤ index) :
    IgnoresArgument context parameters arguments index := by
  intro world steps body seen
  cases steps with
  | zero => rfl
  | succ steps =>
      simp only [machine, applyCallable, List.length_set,
        scopeOf_set_of_le context beyond]

/-- A plain argument is what the name of its parameter stands for. -/
theorem resolve_scopeOf (context : Context Label)
    (distinct : (parameters.map Parameter.name).Nodup) {parameter : Parameter}
    {value : Value Label} (stands : parameters[index]? = some parameter)
    (given : arguments[index]? = some value) (isPlain : value.IsPlain) :
    (scopeOf context parameters arguments).resolve parameter.name.toReference =
      .ok value := by
  have found := find?_bindingsOf_of_getElem? distinct stands given
  change (Context.scope context (bindingsOf parameters arguments)).resolve _ = _
  cases value with
  | reference outer => exact (isPlain.2 rfl).elim
  | _ =>
      simp only [Context.resolve, Context.reference, found]
      rfl

theorem showsArgument_of_lt (world : World Label) (context : Context Label)
    (distinct : (parameters.map Parameter.name).Nodup)
    (accepted : ∀ body : Expression,
      (Callable.lambda parameters body : Callable Label).checkCount
        arguments.length = .ok ())
    {parameter : Parameter} (stands : parameters[index]? = some parameter)
    (given : index < arguments.length) :
    world.ShowsArgument context parameters arguments index := by
  obtain ⟨grown, grows, body, isName⟩ :=
    world.forest.exists_reference parameter.name.toReference
  refine ⟨grown, grows, body, fun steps seen isPlain => ?_⟩
  have isSeen : (arguments.set index seen)[index]? = some seen :=
    List.getElem?_set_self given
  have resolved := resolve_scopeOf context distinct stands isSeen isPlain
  rw [apply_lambda_of_accepted _ context (steps + 1) body
    (by rw [List.length_set]; exact accepted body)]
  simp only [evaluate, machine, isName, evaluateNode, resolved]
  cases seen with
  | expression stored => exact (isPlain.1 rfl).elim
  | _ => rfl

/-- Applying a lambda fails, whatever its body, or the body is evaluated in a scope
where every argument at the position of a parameter is bound to the parameter that
it is prepared for, so that some body shows it.  All further arguments are prepared
for a variable parameter at the end, and every body ignores them. -/
theorem apply_lambda_binds (world : World Label) (context : Context Label)
    {parameters : List Parameter}
    (distinct : (parameters.map Parameter.name).Nodup)
    (arguments : List (Value Label)) :
    (∃ error, ∀ steps body,
        (world.machine (steps + 1) context).apply (.lambda parameters body)
          arguments = .fail error) ∨
      (∀ steps body,
          (world.machine (steps + 1) context).apply (.lambda parameters body)
              arguments =
            world.evaluate steps (scopeOf context parameters arguments) body) ∧
        ∀ index value, arguments[index]? = some value →
          ∃ parameter, parameterAt? parameters index = some parameter ∧
            (index < parameters.length →
              (bindingsOf parameters arguments).find? parameter.name.toReference =
                  some value ∧
                world.ShowsArgument context parameters arguments index) ∧
            (parameters.length ≤ index →
              parameter.cardinality = .variadic ∧
                IgnoresArgument context parameters arguments index) := by
  cases checked : (Callable.lambda parameters (.atRoot 0 ⟨0⟩) :
      Callable Label).checkCount arguments.length with
  | error error =>
      refine .inl ⟨error, fun steps body => ?_⟩
      have refused : (Callable.lambda parameters body : Callable Label).checkCount
          arguments.length = .error error := checked
      simp only [machine, applyCallable, refused]
      rfl
  | ok =>
      have accepted (body : Expression) :
          (Callable.lambda parameters body : Callable Label).checkCount
            arguments.length = .ok () := checked
      refine .inr ⟨fun steps body =>
        apply_lambda_of_accepted world context steps body (accepted body), ?_⟩
      intro index value given
      have bound := (List.getElem?_eq_some_iff.mp given).1
      obtain ⟨arity, isArity, accepts⟩ := Callable.checkCount_eq_ok checked
      change Arity.of parameters = .ok arity at isArity
      obtain ⟨parameter, receives⟩ := Arity.exists_receivesAt isArity accepts bound
      refine ⟨parameter, parameterAt?_eq_some_iff.mpr receives, ?_, ?_⟩
      · intro within
        rcases receives with stands | ⟨beyond, -⟩
        · exact ⟨find?_bindingsOf_of_getElem? distinct stands given,
            showsArgument_of_lt world context distinct accepted stands bound⟩
        · omega
      · intro beyond
        rcases receives with stands | ⟨-, -, variadic⟩
        · have := (List.getElem?_eq_some_iff.mp stands).1
          omega
        · exact ⟨variadic, ignoresArgument_of_le context beyond⟩

end World

theorem apply_lambda_binds_rest :
    let world : World Unit :=
      ⟨Session.start.forest, .answering fun _ => .ok (.bool true)⟩
    let context : Context Unit := .basic {}
    let parameters : List Parameter :=
      [⟨⟨"x"⟩, .any, .required, {}⟩, restParameter]
    let arguments : List (Value Unit) := [.bool true, .text "first", .text "second"]
    (parameters.map Parameter.name).Nodup ∧
      (World.bindingsOf parameters arguments).find? ⟨"rest"⟩ =
        some (.text "first") ∧
      world.ShowsArgument context parameters arguments 1 ∧
      World.IgnoresArgument context parameters arguments 2 := by
  intro world context parameters arguments
  have distinct : (parameters.map Parameter.name).Nodup := by decide
  obtain ⟨error, fails⟩ | ⟨-, binds⟩ :=
    World.apply_lambda_binds world context distinct arguments
  · have ends : ((world.machine 2 context).apply
        (.lambda parameters (.atRoot 0 ⟨0⟩)) arguments).outcome =
          .value (.bool false) := rfl
    rw [fails] at ends
    cases ends
  · obtain ⟨parameter, isParameter, bound, -⟩ := binds 1 (.text "first") rfl
    obtain ⟨_, -, -, further⟩ := binds 2 (.text "second") rfl
    obtain rfl : restParameter = parameter := Option.some.inj isParameter
    obtain ⟨isBound, isShown⟩ := bound (by decide)
    exact ⟨distinct, isBound, isShown, (further (by decide)).2⟩

/-- A caller has built the body of a lambda that names one parameter. -/
def Session.namedRest : Session :=
  start |>.operate (.build 0 (.reference ⟨"rest"⟩))

/-- The second argument of a variable parameter is accepted and is prepared for it,
and the lambda ends with a result.  But the parameter is bound to the first, and
nothing depends on the second. -/
theorem surplus_argument_ignored :
    let world : World Unit :=
      ⟨Session.namedRest.forest, .answering fun _ => .ok (.bool true)⟩
    let parameters : List Parameter := [restParameter]
    let arguments : List (Value Unit) := [.text "first", .text "second"]
    (parameters.map Parameter.name).Nodup ∧
      parameterAt? parameters 1 = some restParameter ∧
      ((world.machine 2 (.basic {})).apply (.lambda parameters (.atRoot 0 ⟨0⟩))
        arguments).outcome = .value (.text "first") ∧
      (World.bindingsOf parameters arguments).find? restParameter.name.toReference =
        some (.text "first") ∧
      ∀ context, World.IgnoresArgument context parameters arguments 1 :=
  ⟨by decide, rfl, rfl, rfl,
    fun context => World.ignoresArgument_of_le context (by decide)⟩

end FormulaEngine
