import FormulaEngine.Proofs.Evaluation.Persistence

/-!
# Evaluation depends on the tree

Nothing in an evaluation looks at the number of a node, at its arena or at the
place where it was reached, as long as no expression is passed on as such.  That
happens in two places: a call may pass an argument unevaluated, and a lambda is a
value with its body in it.  Without these, expressions with one tree evaluate
alike, whatever they share; and since arenas only grow, they still do so after
any number of edits, and so do their copies in other arenas.
-/

namespace FormulaEngine

variable {Label : Type}

/-- A shape passes no expression on: it is no lambda, and if it is a call, every
parameter of the function takes a value. -/
def Shape.CallsByValue (context : Context Label) : Shape → Prop
  | .lambda _ => False
  | .call name => ∀ callable, context.function name = .ok callable →
      ∀ parameter ∈ callable.core.parameters, parameter.flags.unevaluated = false
  | _ => True

section SameForest

variable {world : World Label} {context : Context Label}

/-- Arguments that correspond are prepared alike for parameters that take
values. -/
theorem prepare_corresponds {forest : Forest} {machine : Machine Label}
    {callable : Callable Label} {related : Expression → Expression → Prop}
    {arguments others : List Expression}
    (byValue : ∀ parameter ∈ callable.core.parameters,
      parameter.flags.unevaluated = false)
    (argumentsBelow : List.Forall₂ related arguments others)
    (names : ∀ argument image, related argument image →
      forest.referenceName? argument = forest.referenceName? image)
    (below : ∀ argument image, related argument image →
      machine.evaluate argument = machine.evaluate image) :
    context.prepare forest machine callable arguments =
      context.prepare forest machine callable others := by
  have always (name : Reference) :
      ResolveAlike (fun _ => True) context context name :=
    ⟨rfl, fun _ _ => trivial⟩
  have alike : ConvertAlike (fun _ => True) (fun _ => True) forest context forest
      context := .refl (fun _ => trivial) forest context
  have agrees (argument image : Expression)
      (isRelated : related argument image) :
      (machine.evaluate argument).Agrees .together (fun _ => True)
        (machine.evaluate image) :=
    .same (below argument image isRelated) (Run.ensures_trivially _) nofun
  refine (Context.prepare_agrees argumentsBelow ?_ agrees).eq nofun
  intro parameter member argument image isRelated
  exact Context.prepareArgument_agrees alike _ (names _ _ isRelated)
    (fun name _ => ⟨.good trivial, always name⟩) (fun name _ => always name)
    (by simp [byValue parameter member]) (agrees _ _ isRelated)

/-- Nodes evaluate alike if they correspond and what is below them does. -/
theorem evaluateNode_corresponds {machine : Machine Label}
    {related : Expression → Expression → Prop} {first second : Node Expression}
    (byValue : first.shape.CallsByValue context)
    (corresponds : first.Corresponds related second)
    (names : ∀ child image, related child image →
      world.forest.referenceName? child = world.forest.referenceName? image)
    (below : ∀ child image, related child image →
      machine.evaluate child = machine.evaluate image) :
    world.evaluateNode context machine first =
      world.evaluateNode context machine second := by
  cases corresponds with
  | value literal => rfl
  | reference name => rfl
  | unary op operandBelow =>
      simp only [World.evaluateNode, below _ _ operandBelow]
  | binary op leftBelow rightBelow =>
      simp only [World.evaluateNode, below _ _ leftBelow, below _ _ rightBelow]
  | lambda parameters bodyBelow => exact byValue.elim
  | @call name arguments others argumentsBelow =>
      rw [World.evaluateNode_call, World.evaluateNode_call,
        ← argumentsBelow.length_eq]
      cases found : World.lookUp context name arguments.length with
      | error error => rfl
      | ok callable =>
          have byValue := byValue callable (World.function_of_lookUp found)
          change (pure callable >>= _) = (pure callable >>= _)
          rw [pure_bind, pure_bind,
            prepare_corresponds byValue argumentsBelow names below]

/-- Expressions with one tree evaluate alike. -/
theorem evaluate_eq_of_tree_eq (world : World Label)
    (wellFormed : world.forest.WellFormed) {expression placed : Expression}
    (same : world.forest.tree placed = world.forest.tree expression)
    (byValue : (world.forest.tree expression).All
      (Shape.CallsByValue context)) (steps : Nat) :
    world.evaluate steps context placed =
      world.evaluate steps context expression := by
  induction steps generalizing expression placed with
  | zero => rfl
  | succ steps ih =>
      -- Node numbers differ all the way down, so equality of nodes is of no use.
      have corresponds :=
        Forest.corresponds_of_tree_eq wellFormed wellFormed same
      obtain ⟨here, childrenByValue⟩ :=
        (Forest.all_tree_iff wellFormed).mp byValue
      refine (evaluateNode_corresponds here corresponds ?_ ?_).symm
      · rintro child image ⟨-, isSame⟩
        exact (Forest.corresponds_of_tree_eq wellFormed wellFormed
          isSame).referenceName?_eq
      · rintro child image ⟨isChild, isSame⟩
        exact (ih isSame (childrenByValue child isChild)).symm

end SameForest

section LaterForest

variable {before after : Forest} {expression placed : Expression}

/-- All arenas have grown. -/
def Forest.Extends (before after : Forest) : Prop :=
  ∀ index, (before.arena index).Extends (after.arena index)

/-- Placed expressions read the same when arenas have grown. -/
theorem Forest.Extends.readsAlike (grows : before.Extends after)
    (wellFormed : before.WellFormed) :
    before.ReadsAlike before.Places after where
  node expression places := by
    have source := wellFormed expression.arena
    have inside := places.contains wellFormed
    have grown := grows expression.arena
    apply Node.eq_of_shape
    · rw [shape_node, shape_node]
      exact grown.shape source inside
    · rw [children_node, children_node, children, children,
        grown.children source inside]
  child expression places child isChild := by
    rw [children_node] at isChild
    exact places.of_mem_children isChild

/-- Expressions with one tree evaluate alike, also if one of them is evaluated
after arenas have grown. -/
theorem evaluate_eq_of_extends (wellFormed : before.WellFormed)
    (afterWellFormed : after.WellFormed) (grows : before.Extends after)
    {host : Host Label} (hostSteady : host.Steady before.Places before after)
    {context : Context Label}
    (steady : context.Steady before.Places before after)
    (places : before.Places expression)
    (same : after.tree placed = before.tree expression)
    (byValue : (before.tree expression).All (Shape.CallsByValue context))
    (steps : Nat) :
    (World.mk after host).evaluate steps context placed =
      (World.mk before host).evaluate steps context expression := by
  have kept : after.tree expression = before.tree expression :=
    (grows expression.arena).tree (wellFormed expression.arena)
      (afterWellFormed expression.arena) (places.contains wellFormed)
  have inAfter : (World.mk after host).evaluate steps context placed =
      (World.mk after host).evaluate steps context expression :=
    evaluate_eq_of_tree_eq ⟨after, host⟩ afterWellFormed
      (same.trans kept.symm) (kept ▸ byValue) steps
  exact inAfter.trans (World.evaluate_of_steady hostSteady
    (grows.readsAlike wellFormed) steady places steps)

end LaterForest

end FormulaEngine
