import FormulaEngine.Proofs.Expression.Edits

/-!
# Sessions

A session is a forest together with the expressions that a caller has been given
so far.  From a held expression the caller looks at its children, its parent and
its root; an operation builds or edits with held expressions, and it may fail at
any point.  Whatever the order of these steps, arenas stay well-formed and held
expressions stay placed.
-/

namespace FormulaEngine

open Stateful

/-- What a caller can do to a forest. -/
inductive Operation
  | build (index : Nat) (node : Node Expression)
  | setChildren (expression : Expression) (children : List Expression)
  | replaceChild (expression : Expression) (position : Nat) (child : Expression)

namespace Operation

/-- The index of the arena in which an operation works. -/
def receiver : Operation → Nat
  | build index _ => index
  | setChildren expression _ => expression.arena
  | replaceChild expression _ _ => expression.arena

/-- The expressions that an operation is given. -/
def operands : Operation → List Expression
  | build _ node => node.children
  | setChildren expression children => expression :: children
  | replaceChild expression _ child => [expression, child]

/-- Do an operation. -/
def perform : Operation → Edit Expression
  | build index node => Edit.build index node.shape node.children
  | setChildren expression children => Edit.setChildren expression children
  | replaceChild expression position child =>
      Edit.replaceChild expression position child

/-- The extent of what an operation stores. -/
def extent (forest : Forest) : Operation → Extent
  | build index node => forest.buildExtent index node.shape node.children
  | setChildren expression children =>
      forest.replacementExtent expression children
  | replaceChild expression position child =>
      forest.replacementExtent expression
        ((forest.children expression).set position child)

/-- The length of the longest list that an operation is given to store. -/
def longest : Operation → Nat
  | build _ (.call _ arguments) => arguments.length
  | build _ (.lambda parameters _) => parameters.length
  | build _ _ | replaceChild _ _ _ => 0
  | setChildren _ children => children.length

theorem grows_perform (operation : Operation) :
    Along (Forest.GrowsAt operation.receiver) operation.perform := by
  cases operation with
  | build index node => exact Edit.grows_build index node.shape node.children
  | setChildren expression children =>
      exact Edit.grows_setChildren expression children
  | replaceChild expression position child =>
      exact Edit.grows_replaceChild expression position child

end Operation

theorem Node.admits_children {Child : Type} (node : Node Child) :
    node.shape.admits node.children.length := by
  cases node <;> simp [shape, children, Shape.admits, Shape.arity]

section Operation

variable {before : Forest} {operation : Operation}

theorem Operation.lists_le {index longest : Nat} {node : Node Expression}
    (long : 65535 ≤ longest) (short : (build index node).longest ≤ longest) :
    node.children.length ≤ longest ∧
      ∀ parameters, node.shape = .lambda parameters →
        parameters.length ≤ longest := by
  cases node with
  | call function arguments => exact ⟨short, by simp [Node.shape]⟩
  | lambda parameters body =>
      refine ⟨Nat.le_trans (by simp [Node.children]) long, ?_⟩
      rintro other ⟨rfl⟩
      exact short
  | _ =>
      exact ⟨Nat.le_trans (by simp [Node.children]) long, by simp [Node.shape]⟩

/-- An operation on placed expressions yields a placed one, and fails only for
want of capacity or by doing nothing. -/
theorem Operation.leads_perform (wellFormed : before.WellFormed)
    (places : ∀ operand ∈ operation.operands, before.Places operand)
    {wanted : Extent} {longest : Nat}
    (room : (before.arena operation.receiver).extent +
      operation.extent before ≤ wanted)
    (long : 65535 ≤ longest) (short : operation.longest ≤ longest) :
    Leads operation.perform before
      (fun result after => after.WellFormed ∧ after.Places result)
      (before.Fails wanted longest) := by
  cases operation with
  | build index node =>
      have lists := lists_le long short
      exact ((Edit.leads_build wellFormed places node.admits_children room long
        lists.1 lists.2).imp fun _ _ built =>
          ⟨built.produces.wellFormed, built.produces.places⟩).imp_error
            fun _ _ => Or.inl
  | setChildren expression children =>
      exact (Edit.leads_setChildren wellFormed
        (places expression (by simp [operands]))
        (fun child isChild => places child (by simp [operands, isChild]))
        room long short).imp fun _ _ replaces =>
          ⟨replaces.produces.wellFormed, replaces.produces.places⟩
  | replaceChild expression position child =>
      exact (Edit.leads_replaceChild wellFormed
        (places expression (by simp [operands]))
        (places child (by simp [operands])) room long).imp fun _ _ replaces =>
          ⟨replaces.produces.wellFormed, replaces.produces.places⟩

end Operation

/-- A forest, and the expressions that a caller holds. -/
structure Session where
  forest : Forest
  held : List Expression

/-- What a caller sees when looking at an expression. -/
inductive Looks (forest : Forest) (expression : Expression) : Expression → Prop
  | child {child : Expression} (isChild : child ∈ forest.children expression) :
      Looks forest expression child
  | operand {child : Expression}
      (isChild : child ∈ (forest.node expression).children) :
      Looks forest expression child
  | parent {parent : Expression} (isParent : expression.parent? = some parent) :
      Looks forest expression parent
  | root : Looks forest expression expression.root
  | withoutParent : Looks forest expression expression.withoutParent

namespace Session

/-- The session before anything is built. -/
def start : Session :=
  ⟨⟨#[]⟩, []⟩

/-- The session after an operation.  Its forest is what the operation has made of
it, even where it failed; a result is held from then on. -/
def operate (session : Session) (operation : Operation) : Session :=
  match operation.perform session.forest with
  | .ok result forest => ⟨forest, result :: session.held⟩
  | .error _ forest => ⟨forest, session.held⟩

/-- The session after an expression has been seen. -/
def see (session : Session) (seen : Expression) : Session :=
  ⟨session.forest, seen :: session.held⟩

/-- A caller operates on held expressions, or looks at one. -/
inductive Moves (session : Session) : Session → Prop
  | operate (operation : Operation)
      (held : ∀ operand ∈ operation.operands, operand ∈ session.held) :
      Moves session (session.operate operation)
  | look {expression seen : Expression} (held : expression ∈ session.held)
      (looks : Looks session.forest expression seen) :
      Moves session (session.see seen)

/-- The sessions that a caller can bring about. -/
inductive Reachable : Session → Prop
  | start : Reachable start
  | move {session next : Session} (reachable : Reachable session)
      (moves : Moves session next) : Reachable next

/-- Arenas are well-formed and held expressions are placed. -/
structure Valid (session : Session) : Prop where
  wellFormed : session.forest.WellFormed
  places : ∀ expression ∈ session.held, session.forest.Places expression

theorem valid_start : start.Valid :=
  ⟨Forest.wellFormed_empty, by simp [start]⟩

end Session

theorem Forest.Places.looks {forest : Forest} {expression seen : Expression}
    (places : forest.Places expression) (wellFormed : forest.WellFormed)
    (looks : Looks forest expression seen) : forest.Places seen := by
  cases looks with
  | child isChild => exact places.of_mem_children isChild
  | operand isChild =>
      rw [forest.children_node] at isChild
      exact places.of_mem_children isChild
  | parent isParent => exact (places.parent isParent).1
  | root => exact places.root
  | withoutParent => exact places.withoutParent wellFormed

namespace Session

variable {session next : Session} {operation : Operation}

theorem forest_operate (session : Session) (operation : Operation) :
    (session.operate operation).forest =
      finalState (operation.perform session.forest) := by
  unfold operate
  split <;> simp [finalState, *]

theorem grows_operate (session : Session) (operation : Operation) :
    session.forest.GrowsAt operation.receiver
      (session.operate operation).forest := by
  rw [forest_operate]
  exact operation.grows_perform session.forest

/-- What an operation on held expressions leads to in a valid session. -/
theorem Valid.leads_perform (valid : session.Valid)
    (held : ∀ operand ∈ operation.operands, operand ∈ session.held) :
    ∃ wanted longest, Leads operation.perform session.forest
      (fun result after => after.WellFormed ∧ after.Places result)
      (session.forest.Fails wanted longest) :=
  ⟨_, max 65535 operation.longest, operation.leads_perform valid.wellFormed
    (fun operand member => valid.places operand (held operand member))
    (Extent.le_refl _) (Nat.le_max_left _ _) (Nat.le_max_right _ _)⟩

theorem Valid.operate (valid : session.Valid)
    (held : ∀ operand ∈ operation.operands, operand ∈ session.held) :
    (session.operate operation).Valid := by
  obtain ⟨wanted, longest, leads⟩ := valid.leads_perform held
  have grows := session.grows_operate operation
  have keeps : ∀ expression ∈ session.held,
      (session.operate operation).forest.Places expression :=
    fun expression member =>
      grows.places valid.wellFormed (valid.places expression member)
  -- Whether or not there is a result, what was held before is still placed.
  unfold Session.operate at *
  cases run : operation.perform session.forest with
  | ok result after =>
      obtain ⟨wellFormed, places⟩ := leads.of_ok run
      rw [run] at keeps
      refine ⟨wellFormed, fun expression member => ?_⟩
      rcases List.mem_cons.mp member with rfl | member
      · exact places
      · exact keeps expression member
  | error error after =>
      rw [run] at keeps
      exact ⟨(leads.of_error run).wellFormed valid.wellFormed, keeps⟩

theorem Valid.move (valid : session.Valid) (moves : session.Moves next) :
    next.Valid := by
  cases moves with
  | operate operation held => exact valid.operate held
  | look held looks =>
      refine ⟨valid.wellFormed, fun expression member => ?_⟩
      rcases List.mem_cons.mp member with rfl | member
      · exact (valid.places _ held).looks valid.wellFormed looks
      · exact valid.places expression member

theorem Reachable.valid (reachable : session.Reachable) : session.Valid := by
  induction reachable with
  | start => exact valid_start
  | move _ moves ih => exact ih.move moves

/-- An operation that is refused leaves the session as it was. -/
theorem Valid.operate_of_refused (valid : session.Valid)
    (held : ∀ operand ∈ operation.operands, operand ∈ session.held)
    {error : TreeError} {after : Forest}
    (run : operation.perform session.forest = .error error after)
    (refused : ∀ cause, error ≠ .capacity cause) :
    session.operate operation = session := by
  obtain ⟨wanted, longest, leads⟩ := valid.leads_perform held
  obtain rfl := (leads.of_error run).eq_of_refused refused
  simp only [Session.operate, run]

/-! ### A session to look at -/

/-- A caller has built the negation of a call whose two arguments are one node,
and a name in another arena, and looks at the call below the negation. -/
def nestedCall : Session :=
  let leaf := Expression.atRoot 0 ⟨0⟩
  start
    |>.operate (.build 0 (.value (.bool true)))
    |>.operate (.build 0 (.call ⟨"sum"⟩ [leaf, leaf]))
    |>.operate (.build 0 (.unary .negate (.atRoot 0 ⟨1⟩)))
    |>.operate (.build 1 (.reference ⟨"x"⟩))
    |>.see ((Expression.atRoot 0 ⟨2⟩).below 0 ⟨1⟩)

theorem reachable_nestedCall : nestedCall.Reachable := by
  have top : Expression.atRoot 0 ⟨2⟩ ∈
      [Expression.atRoot 1 ⟨0⟩, .atRoot 0 ⟨2⟩, .atRoot 0 ⟨1⟩, .atRoot 0 ⟨0⟩] := by
    decide
  refine .move (.move (.move (.move (.move .start (.operate _ ?_))
    (.operate _ ?_)) (.operate _ ?_)) (.operate _ ?_)) (.look top (.child ?_))
  all_goals decide +kernel

/-! ### What holds in every reachable session -/

/-- The path of a held expression is a chain of parents.  Its children lead back
to it, it is a child of its parent, and its children are the ones that its node
is made of. -/
theorem Reachable.navigation_agrees (reachable : session.Reachable)
    {expression : Expression} (held : expression ∈ session.held) :
    session.forest.Places expression ∧
      (∀ (index : Nat) (child : Expression),
        (session.forest.children expression)[index]? = some child →
          child.index? = some index ∧ child.parent? = some expression ∧
            child.root = expression.root) ∧
      (∀ parent, expression.parent? = some parent →
        ∃ index, expression.index? = some index ∧
          (session.forest.children parent)[index]? = some expression) ∧
      (session.forest.node expression).children =
        session.forest.children expression := by
  have places := reachable.valid.places expression held
  refine ⟨places, ?_, ?_, Forest.children_node _ _⟩
  · intro index child isChild
    obtain ⟨-, parent, position, root⟩ := places.child isChild
    exact ⟨position, parent, root⟩
  · intro parent isParent
    exact (places.parent isParent).2

theorem navigation_agrees_nestedCall :
    let call := (Expression.atRoot 0 ⟨2⟩).below 0 ⟨1⟩
    nestedCall.Reachable ∧ call ∈ nestedCall.held ∧
      nestedCall.forest.Places call :=
  ⟨reachable_nestedCall, by decide +kernel,
    (Reachable.navigation_agrees reachable_nestedCall (by decide +kernel)).1⟩

/-- An operation only appends, however it ends.  What was stored in any arena
reads the same afterwards, so held expressions keep their trees; arenas other
than the receiver's do not change; and an operation that is refused changes
nothing. -/
theorem Reachable.operation_only_appends (reachable : session.Reachable)
    (held : ∀ operand ∈ operation.operands, operand ∈ session.held) :
    (∀ index,
      let before := session.forest.arena index
      let after := (session.operate operation).forest.arena index
      before.Extends after ∧
        (∀ id, before.Contains id → after.stored id = before.stored id) ∧
        (∀ range : StorageRange, range.next ≤ before.childLists.size →
          range.slice after.childLists = range.slice before.childLists) ∧
        (∀ range : StorageRange, range.next ≤ before.parameters.size →
          range.slice after.parameters = range.slice before.parameters)) ∧
      (∀ expression ∈ session.held,
        (session.operate operation).forest.tree expression =
          session.forest.tree expression) ∧
      (∀ other, other ≠ operation.receiver →
        (session.operate operation).forest.arena other =
          session.forest.arena other) ∧
      (∀ error after, operation.perform session.forest = .error error after →
        (∀ cause, error ≠ .capacity cause) →
          session.operate operation = session) := by
  have valid := reachable.valid
  have grows := session.grows_operate operation
  refine ⟨fun index => ?_, fun expression member => ?_, grows.others,
    fun error after run refused => valid.operate_of_refused held run refused⟩
  · have extended := grows.extends index
    exact ⟨extended, fun id inside => extended.stored inside,
      fun range inside =>
        StorageRange.slice_of_prefix extended.childLists inside,
      fun range inside =>
        StorageRange.slice_of_prefix extended.parameters inside⟩
  · exact grows.tree valid.wellFormed (valid.operate held).wellFormed
      (valid.places expression member)

theorem operation_only_appends_nestedCall :
    let call := (Expression.atRoot 0 ⟨2⟩).below 0 ⟨1⟩
    let edit := Operation.setChildren call [.atRoot 1 ⟨0⟩]
    (∀ operand ∈ edit.operands, operand ∈ nestedCall.held) ∧
      (nestedCall.operate edit).forest.tree call =
        nestedCall.forest.tree call ∧
      (nestedCall.operate edit).forest.arena 1 = nestedCall.forest.arena 1 := by
  intro call edit
  have held : ∀ operand ∈ edit.operands, operand ∈ nestedCall.held := by
    decide +kernel
  have appends := Reachable.operation_only_appends reachable_nestedCall held
  exact ⟨held, appends.2.1 call (by decide +kernel), appends.2.2.1 1 (by decide)⟩

end Session

end FormulaEngine
