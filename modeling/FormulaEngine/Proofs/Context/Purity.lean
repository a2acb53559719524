import FormulaEngine.Context.Purity
import FormulaEngine.Proofs.Expression.Correspondence
import FormulaEngine.Proofs.Expression.Recursion

/-!
# Judgements of purity

The names called in an expression are that of the expression itself, if it is a call,
and those called in its children, in order.  A judgement of purity that has been
reached within some steps stays the same with more of them, so it does not matter how
many steps are allowed once there is an answer.
-/

namespace FormulaEngine

variable {Label : Type}

/-! ### The names called in an expression -/

/-- The name that a node of some shape calls. -/
def Shape.called? : Shape → Option FunctionName
  | .call name => some name
  | _ => none

namespace Forest

/-- The visitor that puts the names of called functions in front of a list. -/
def callCollector : Visitor (List FunctionName) where
  react event _ names :=
    match event with
    | .startCall function => (.continue, function :: names)
    | _ => (.continue, names)

variable {forest : Forest}

theorem calledNames_eq_reverse (forest : Forest) (expression : Expression) :
    forest.calledNames expression =
      (callCollector.walk forest expression []).reverse :=
  rfl

theorem walkNode_callCollector
    (walkChild : Expression → List FunctionName → List FunctionName)
    (expression : Expression) (names : List FunctionName) :
    callCollector.walkNode forest walkChild expression names =
      (forest.children expression).foldl
        (fun names child => walkChild child names)
        ((forest.shape expression).called?.toList ++ names) := by
  rw [← forest.children_node, ← forest.shape_node]
  simp only [Visitor.walkNode, callCollector]
  cases forest.node expression <;> rfl

theorem foldl_callCollector {children : List Expression}
    (walks : ∀ child ∈ children, ∀ names,
      callCollector.walk forest child names =
        (forest.calledNames child).reverse ++ names)
    (names : List FunctionName) :
    children.foldl (fun names child => callCollector.walk forest child names) names =
      (children.flatMap forest.calledNames).reverse ++ names := by
  induction children generalizing names with
  | nil => rfl
  | cons child children ih =>
      obtain ⟨first, others⟩ := List.forall_mem_cons.mp walks
      rw [List.foldl_cons, first, ih others, List.flatMap_cons, List.reverse_append,
        List.append_assoc]

theorem walk_callCollector (wellFormed : forest.WellFormed) (expression : Expression)
    (names : List FunctionName) :
    callCollector.walk forest expression names =
      ((forest.children expression).flatMap forest.calledNames).reverse ++
        ((forest.shape expression).called?.toList ++ names) := by
  -- Children are older, so the induction is on the index of the node.
  induction index : expression.node.index using Nat.strong_induction_on
    generalizing expression names with
  | _ index ih =>
      subst index
      rw [callCollector.walk_eq wellFormed, walkNode_callCollector]
      refine foldl_callCollector (fun child isChild names => ?_) _
      have older := wellFormed.older_child isChild
      rw [calledNames_eq_reverse, ih _ older child names rfl,
        ih _ older child [] rfl]
      simp

/-- A call calls its own name first, and every node then calls what its children
call, from left to right. -/
theorem calledNames_eq (wellFormed : forest.WellFormed) (expression : Expression) :
    forest.calledNames expression =
      (forest.shape expression).called?.toList ++
        (forest.children expression).flatMap forest.calledNames := by
  rw [calledNames_eq_reverse, walk_callCollector wellFormed, List.append_nil,
    List.reverse_append, List.reverse_reverse]
  cases (forest.shape expression).called? <;> rfl

end Forest

/-! ### More steps -/

section Tests

variable {Item : Type} {test other : Item → Option Bool} {items : List Item}

theorem allWithin_eq_some_true_iff :
    allWithin test items = some true ↔ ∀ item ∈ items, test item = some true := by
  induction items with
  | nil => simp [allWithin]
  | cons item items ih =>
      rw [List.forall_mem_cons, ← ih, allWithin]
      split <;> simp_all

theorem allWithin_mono
    (keeps : ∀ item answer, test item = some answer → other item = some answer)
    {answer : Bool} (answered : allWithin test items = some answer) :
    allWithin other items = some answer := by
  induction items with
  | nil => exact answered
  | cons item items ih =>
      unfold allWithin at answered ⊢
      cases tested : test item with
      | none => simp [tested] at answered
      | some result =>
          rw [keeps item result tested]
          cases result with
          | true => exact ih (by simpa [tested] using answered)
          | false => simpa [tested] using answered

end Tests

theorem Callable.isPureBy_mono {forest : Forest}
    {judge other : FunctionName → Option Bool}
    (keeps : ∀ name answer, judge name = some answer → other name = some answer)
    {callable : Callable Label} {answer : Bool}
    (answered : callable.isPureBy forest judge = some answer) :
    callable.isPureBy forest other = some answer := by
  unfold isPureBy at answered ⊢
  split at answered
  · exact allWithin_mono keeps answered
  · exact answered
  · exact answered

namespace Context

variable {forest : Forest} {context : Context Label} {name : FunctionName}

/-- A judgement does not change with more steps. -/
theorem isPure_mono {steps more : Nat} (le : steps ≤ more) {answer : Bool}
    (answered : context.isPure forest steps name = some answer) :
    context.isPure forest more name = some answer := by
  induction steps generalizing context name more answer with
  | zero => cases answered
  | succ steps ih =>
      obtain ⟨more, rfl⟩ := Nat.exists_eq_add_of_le' le
      have fewer : steps ≤ more + steps := Nat.le_add_left steps more
      unfold isPure at answered ⊢
      split at answered
      next callable home judged =>
        exact Callable.isPureBy_mono (fun _ _ => ih fewer) answered
      next => exact answered

theorem isSome_isPure_mono {steps more : Nat} (le : steps ≤ more)
    (answered : (context.isPure forest steps name).isSome = true) :
    (context.isPure forest more name).isSome = true := by
  obtain ⟨answer, isAnswer⟩ := Option.isSome_iff_exists.mp answered
  rw [isPure_mono le isAnswer]
  rfl

/-- Two judgements of a name are the same, however many steps they take. -/
theorem isPure_unique {steps others : Nat} {answer other : Bool}
    (first : context.isPure forest steps name = some answer)
    (second : context.isPure forest others name = some other) : answer = other := by
  have atMost := isPure_mono (Nat.le_max_left steps others) first
  rw [isPure_mono (Nat.le_max_right steps others) second] at atMost
  exact (Option.some.inj atMost).symm

/-- Calls of a name are judged pure. -/
def JudgesPure (context : Context Label) (forest : Forest) (name : FunctionName) :
    Prop :=
  ∃ steps, context.isPure forest steps name = some true

/-- All calls in an expression are judged pure. -/
def JudgesCalls (context : Context Label) (forest : Forest)
    (expression : Expression) : Prop :=
  ∀ name ∈ forest.calledNames expression, context.JudgesPure forest name

section Calls

variable {expression : Expression}

theorem JudgesCalls.child (wellFormed : forest.WellFormed)
    (judges : context.JudgesCalls forest expression) {child : Expression}
    (isChild : child ∈ (forest.node expression).children) :
    context.JudgesCalls forest child := by
  rw [forest.children_node] at isChild
  intro name isCalled
  apply judges
  rw [forest.calledNames_eq wellFormed]
  exact List.mem_append_right _ (List.mem_flatMap.mpr ⟨child, isChild, isCalled⟩)

theorem JudgesCalls.call (wellFormed : forest.WellFormed)
    (judges : context.JudgesCalls forest expression) {arguments : List Expression}
    (isCall : forest.node expression = .call name arguments) :
    context.JudgesPure forest name := by
  apply judges
  rw [forest.calledNames_eq wellFormed, ← forest.shape_node, isCall]
  exact List.mem_append_left _ (List.mem_singleton_self name)

/-- Judgements of several names can be reached within the same number of steps. -/
theorem exists_steps {names : List FunctionName}
    (judges : ∀ name ∈ names, context.JudgesPure forest name) :
    ∃ steps, ∀ name ∈ names, context.isPure forest steps name = some true := by
  induction names with
  | nil => exact ⟨0, nofun⟩
  | cons name names ih =>
      obtain ⟨⟨first, isPure⟩, judges⟩ := List.forall_mem_cons.mp judges
      obtain ⟨others, arePure⟩ := ih judges
      refine ⟨max first others, List.forall_mem_cons.mpr ⟨?_, fun other member => ?_⟩⟩
      · exact isPure_mono (Nat.le_max_left first others) isPure
      · exact isPure_mono (Nat.le_max_right first others) (arePure other member)

end Calls

end Context

/-- A function is judged pure in a context. -/
def Callable.JudgedPure (callable : Callable Label) (forest : Forest)
    (context : Context Label) : Prop :=
  ∃ steps, callable.isPure forest steps context = some true

section Functions

variable {forest : Forest} {context : Context Label}

theorem Callable.judgedPure_lambda_iff {parameters : List Parameter}
    {body : Expression} :
    (lambda parameters body : Callable Label).JudgedPure forest context ↔
      context.JudgesCalls forest body := by
  constructor
  · rintro ⟨steps, isPure⟩ name isCalled
    exact ⟨steps, allWithin_eq_some_true_iff.mp isPure name isCalled⟩
  · intro judges
    obtain ⟨steps, arePure⟩ := Context.exists_steps judges
    exact ⟨steps, allWithin_eq_some_true_iff.mpr arePure⟩

theorem Callable.JudgedPure.isPure_of_core {callable : Callable Label}
    (judged : callable.JudgedPure forest context) {declaration : Declaration}
    {label : Label} (isHost : callable.core = .host declaration label) :
    declaration.isPure = true := by
  obtain ⟨steps, isPure⟩ := judged
  simpa only [Callable.isPure, isPureBy, isHost, Option.some.injEq] using isPure

/-- A name that tables judge pure is that of a registered function that is judged
pure. -/
theorem BasicContext.exists_of_judgesPure {tables : BasicContext Label}
    {name : FunctionName} (judges : (Context.basic tables).JudgesPure forest name) :
    ∃ callable, tables.functions.find? name = some callable ∧
      callable.JudgedPure forest (.basic tables) := by
  obtain ⟨steps, isPure⟩ := judges
  cases steps with
  | zero => cases isPure
  | succ steps =>
      simp only [Context.isPure, Context.judged?] at isPure
      cases found : tables.functions.find? name with
      | none => simp [found] at isPure
      | some callable =>
          simp only [found, Option.map_some] at isPure
          exact ⟨callable, rfl, steps, isPure⟩

end Functions

end FormulaEngine
