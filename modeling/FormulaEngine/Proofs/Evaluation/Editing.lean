import FormulaEngine.Proofs.Evaluation.SameTree
import FormulaEngine.Proofs.Expression.Session
import Mathlib.Logic.Relation

/-!
# Evaluation between edits

A caller may evaluate held expressions at any time and go on building and editing.
What an expression evaluates to depends on its tree alone: it is the same for
every expression of that tree, in every later session, and for the copies that an
operation makes of its operands in another arena.
-/

namespace FormulaEngine

namespace Forest

theorem Produces.trees_children {before after : Forest} {shape : Shape}
    {children : List Expression} {result : Expression}
    (produces : before.Produces shape children result after) :
    (after.children result).map after.tree = children.map before.tree := by
  have same := produces.tree_eq
  rw [Forest.tree_eq produces.wellFormed] at same
  exact (Tree.node.inj same).2

end Forest

namespace Operation

/-- The expressions that an operation puts below its result. -/
def below (forest : Forest) : Operation → List Expression
  | build _ node => node.children
  | setChildren _ children => children
  | replaceChild expression position child =>
      (forest.children expression).set position child

/-- What an operation puts below its result keeps its trees, also where it is
copied from another arena. -/
theorem trees_below {before after : Forest} {operation : Operation}
    {result : Expression} (wellFormed : before.WellFormed)
    (places : ∀ operand ∈ operation.operands, before.Places operand)
    (run : operation.perform before = .ok result after) :
    (after.children result).map after.tree =
      (operation.below before).map before.tree := by
  have long := Nat.le_max_left 65535 operation.longest
  have short := Nat.le_max_right 65535 operation.longest
  have room (extent : Extent) := Extent.le_refl extent
  cases operation with
  | build index node =>
      have lists := lists_le long short
      exact ((Edit.leads_build wellFormed places node.admits_children (room _) long
        lists.1 lists.2).of_ok run).produces.trees_children
  | setChildren expression children =>
      exact ((Edit.leads_setChildren wellFormed
        (places expression (by simp [operands]))
        (fun child isChild => places child (by simp [operands, isChild]))
        (room _) long short).of_ok run).produces.trees_children
  | replaceChild expression position child =>
      exact ((Edit.leads_replaceChild wellFormed
        (places expression (by simp [operands]))
        (places child (by simp [operands])) (room _)
        long).of_ok run).produces.trees_children

end Operation

namespace Session

variable {Label : Type} {session later : Session}

/-- The world of a session and a host. -/
def world (session : Session) (host : Host Label) : World Label :=
  ⟨session.forest, host⟩

theorem Moves.extends (moves : session.Moves later) :
    session.forest.Extends later.forest := by
  cases moves with
  | operate operation held =>
      exact (session.grows_operate operation).extends
  | look held looks => exact fun index => Arena.Extends.refl _

theorem Reachable.extends (reachable : session.Reachable)
    (follows : Relation.ReflTransGen Moves session later) :
    later.Reachable ∧ session.forest.Extends later.forest := by
  induction follows with
  | refl => exact ⟨reachable, fun index => Arena.Extends.refl _⟩
  | tail _ moves ih =>
      exact ⟨ih.1.move moves,
        fun index => (ih.2 index).trans (moves.extends index)⟩

/-- Nothing but nodes changes for evaluations between two sessions: tables and
host code hold expressions of the first one only, and treat them alike in both. -/
structure Steady (session later : Session) (host : Host Label)
    (tables : BasicContext Label) : Prop where
  host : host.Steady session.forest.Places session.forest later.forest
  tables : tables.Steady session.forest.Places session.forest later.forest

/-- An expression evaluates in a later session as another one does in this
session: to the same value or the same error, by the same calls of host code. -/
def EvaluatesAs (session later : Session) (host : Host Label)
    (tables : BasicContext Label) (expression placed : Expression) : Prop :=
  ∀ steps, (later.world host).evaluate steps (.basic tables) placed =
    (session.world host).evaluate steps (.basic tables) expression

/-- What a held expression evaluates to depends on its tree alone.  All
expressions of the tree evaluate alike, in the same session and in every later
one; so does the expression itself after any edits, and so do the copies that an
operation makes of it. -/
theorem Reachable.evaluation_depends_on_tree (reachable : session.Reachable)
    {expression : Expression} (held : expression ∈ session.held)
    (host : Host Label) (tables : BasicContext Label)
    (byValue : (session.forest.tree expression).All
      (Shape.CallsByValue (.basic tables))) :
    (∀ placed,
      session.forest.tree placed = session.forest.tree expression →
        session.EvaluatesAs session host tables expression placed) ∧
      (∀ later, Relation.ReflTransGen Moves session later →
        session.Steady later host tables →
          session.EvaluatesAs later host tables expression expression ∧
            ∀ placed,
              later.forest.tree placed = session.forest.tree expression →
                session.EvaluatesAs later host tables expression placed) ∧
      (∀ (operation : Operation) (result : Expression) (after : Forest),
        (∀ operand ∈ operation.operands, operand ∈ session.held) →
          operation.perform session.forest = .ok result after →
            session.Steady (session.operate operation) host tables →
              ∀ (index : Nat) (copy : Expression),
                (operation.below session.forest)[index]? = some expression →
                  (after.children result)[index]? = some copy →
                    session.EvaluatesAs (session.operate operation) host tables
                      expression copy) := by
  have valid := reachable.valid
  have places := valid.places expression held
  have inLater {later : Session}
      (follows : Relation.ReflTransGen Moves session later)
      (steady : session.Steady later host tables) {placed : Expression}
      (same : later.forest.tree placed = session.forest.tree expression) :
      session.EvaluatesAs later host tables expression placed := by
    intro steps
    obtain ⟨laterReachable, grows⟩ := reachable.extends follows
    have contextSteady : (Context.basic tables).Steady session.forest.Places
        session.forest later.forest := steady.tables
    exact evaluate_eq_of_extends valid.wellFormed
      laterReachable.valid.wellFormed grows steady.host contextSteady places same
      byValue steps
  refine ⟨fun placed same steps => ?_,
    fun later follows steady => ⟨?_, fun placed => inLater follows steady⟩, ?_⟩
  · exact evaluate_eq_of_tree_eq (session.world host) valid.wellFormed same
      byValue steps
  · obtain ⟨laterReachable, grows⟩ := reachable.extends follows
    exact inLater follows steady ((grows expression.arena).tree
      (valid.wellFormed _) (laterReachable.valid.wellFormed _)
      (places.contains valid.wellFormed))
  · intro operation result after operandsHeld run steady index copy isBelow isCopy
    refine inLater (.single (.operate operation operandsHeld)) steady ?_
    have trees := congrArg (·[index]?) (Operation.trees_below valid.wellFormed
      (fun operand member => valid.places operand (operandsHeld operand member))
      run)
    have sameForest : (session.operate operation).forest = after := by
      simp only [Session.operate, run]
    simpa [isBelow, isCopy, sameForest] using trees

/-- Host code that answers with the number of its arguments. -/
def countingHost : Host Unit :=
  .answering fun arguments => .ok (.bigInteger arguments.length)

/-- Tables in which a sum counts its arguments. -/
def countingTables : BasicContext Unit where
  functions := .ofList [(⟨"sum"⟩,
    .host { name := ⟨"sum"⟩,
            parameters := [⟨⟨"items"⟩, .any, .variadic, {}⟩] } ())]

theorem steady_counting (session later : Session) :
    session.Steady later countingHost countingTables where
  host := Host.steady_answering (by rintro arguments value - ⟨rfl⟩; trivial)
  tables :=
    { functions := by
        intro name callable found
        have member := Table.mem_of_find?_ofList found
        simp only [List.mem_singleton, Prod.mk.injEq] at member
        rw [member.2]
        trivial
      references := by rintro name value ⟨⟩
      converter := Converter.steady_basic
      truthiness := by rintro rule ⟨⟩ }

theorem evaluation_depends_on_tree_nestedCall :
    let call := (Expression.atRoot 0 ⟨2⟩).below 0 ⟨1⟩
    let copying := Operation.build 1 (.unary .not call)
    ∃ result after copy, copying.perform nestedCall.forest = .ok result after ∧
      (after.children result)[0]? = some copy ∧
      nestedCall.EvaluatesAs nestedCall countingHost countingTables call
        (.atRoot 0 ⟨1⟩) ∧
      nestedCall.EvaluatesAs (nestedCall.operate copying) countingHost
        countingTables call copy := by
  intro call copying
  have held : call ∈ nestedCall.held := by decide +kernel
  have tree : nestedCall.forest.tree call =
      .node (.call ⟨"sum"⟩)
        [.node (.value (.bool true)) [], .node (.value (.bool true)) []] := rfl
  have byValue : (nestedCall.forest.tree call).All
      (Shape.CallsByValue (.basic countingTables)) := by
    rw [tree]
    simp [Tree.all_node, Shape.CallsByValue, Context.function,
      BasicContext.function, countingTables, Table.find?_ofList, Callable.core,
      Callable.parameters]
  obtain ⟨sameSession, -, copied⟩ := Reachable.evaluation_depends_on_tree
    reachable_nestedCall held countingHost countingTables byValue
  have operandsHeld : ∀ operand ∈ copying.operands,
      operand ∈ nestedCall.held := by decide +kernel
  cases run : copying.perform nestedCall.forest with
  | error error after =>
      have succeeds : (copying.perform nestedCall.forest matches .ok ..) = true :=
        by decide +kernel
      simp [run] at succeeds
  | ok result after =>
      have trees := Operation.trees_below reachable_nestedCall.valid.wellFormed
        (fun operand member => reachable_nestedCall.valid.places operand
          (operandsHeld operand member)) run
      obtain ⟨copy, alone⟩ : ∃ copy, after.children result = [copy] :=
        List.length_eq_one_iff.mp (by
          simpa [copying, Operation.below, Node.children] using
            congrArg List.length trees)
      have isCopy : (after.children result)[0]? = some copy := by rw [alone]; rfl
      exact ⟨result, after, copy, rfl, isCopy, sameSession (.atRoot 0 ⟨1⟩) rfl,
        copied copying result after operandsHeld run (steady_counting _ _) 0 copy
          rfl isCopy⟩

end Session

end FormulaEngine
