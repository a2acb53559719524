import FormulaEngine.Proofs.Arena.Numbering
import FormulaEngine.Proofs.Expression.Session

/-!
# Numbers of built nodes

Building in an arena works by pushes as well: copies of what other arenas hold are
attached first, and the new node is pushed last.  Together with pushing, copying
and attaching this makes up all ways to allocate.  So the numbers that a caller
holds are those of nodes, each handed out once; but a caller who fills an arena
gets, for its last node, the number that stands for none.
-/

namespace FormulaEngine

open Stateful Arena

namespace Edit

variable {before : Forest} {index : Nat}

/-- An edit is refused because an arena lacks the room. -/
def LacksRoom (index : Nat) (error : TreeError) (after : Forest) : Prop :=
  ∃ cause, error = .capacity cause ∧ (after.arena index).LacksRoom cause

/-- An edit works in the arena of an index by pushes, is refused for want of room
there, and leaves all other arenas alone. -/
abbrev EditsByPushes {Result : Type} (index : Nat) (edit : Edit Result)
    (before : Forest) (returns : Result → List NodeId → Prop) : Prop :=
  ByPushes (fun forest => forest.arena index) (LacksRoom index) edit before
    fun result issued after => returns result issued ∧
      ∀ other, other ≠ index → after.arena other = before.arena other

theorem byPushes_within {Result : Type} {allocation : Allocation Result}
    {returns : Result → List NodeId → Prop}
    (works : AllocatesByPushes allocation (before.arena index) returns) :
    EditsByPushes index (within index allocation) before returns := by
  unfold EditsByPushes ByPushes Leads
  cases run : allocation (before.arena index) with
  | ok result arena =>
      obtain ⟨issued, pushes, holds⟩ := Leads.of_ok works run
      simp only [within, run, Forest.arena_put_same]
      exact ⟨issued, pushes, holds, fun other different =>
        Forest.arena_put_other before arena different⟩
  | error cause arena =>
      obtain ⟨lacks, pushes⟩ := Leads.of_error works run
      simp only [within, run, LacksRoom, Forest.arena_put_same]
      exact ⟨⟨cause, rfl, lacks⟩, pushes⟩

theorem byPushes_adopt
    (sources : ∀ other, other ≠ index → (before.arena other).WellFormed)
    (expression : Expression) :
    EditsByPushes index (adopt index expression) before fun _ _ => True := by
  unfold adopt
  split
  next own => exact byPushes_pure ⟨trivial, fun _ _ => rfl⟩
  next foreign =>
    apply leads_get_bind
    have works := byPushes_within (byPushes_attach
      (sources expression.arena foreign) expression.node (before.arena index))
    refine Leads.imp works ?_
    rintro id after ⟨issued, pushes, -, others⟩
    exact ⟨issued, pushes, trivial, others⟩

theorem byPushes_adoptAll
    (sources : ∀ other, other ≠ index → (before.arena other).WellFormed)
    (expressions : List Expression) :
    EditsByPushes index (adoptAll index expressions) before
      fun ids _ => ids.length = expressions.length := by
  induction expressions generalizing before with
  | nil => exact byPushes_pure ⟨rfl, fun _ _ => rfl⟩
  | cons expression rest ih =>
      apply (byPushes_adopt sources expression).bind
      rintro id issued middle ⟨-, others⟩
      apply (ih fun other different => by
        rw [others other different]
        exact sources other different).bind
      rintro ids more after ⟨count, othersOn⟩
      exact byPushes_pure ⟨congrArg Nat.succ count, fun other different =>
        (othersOn other different).trans (others other different)⟩

/-- A node is built by copying what other arenas hold, and one push at the end. -/
theorem byPushes_build
    (sources : ∀ other, other ≠ index → (before.arena other).WellFormed)
    {shape : Shape} {children : List Expression}
    (fits : shape.admits children.length) :
    EditsByPushes index (build index shape children) before
      fun result issued => result.arena = index ∧
        ∃ earlier, issued = earlier ++ [result.node] := by
  apply (byPushes_adoptAll sources children).bind
  rintro ids issued middle ⟨count, others⟩
  apply (byPushes_within (byPushes_allocate (by rwa [count])
    (middle.arena index))).bind
  rintro id _ after ⟨rfl, othersOn⟩
  refine byPushes_pure ⟨⟨rfl, issued, by rw [List.append_nil]; rfl⟩,
    fun other different =>
      (othersOn other different).trans (others other different)⟩

end Edit

namespace Arena

/-- Every way to allocate in an arena, whatever it holds, hands out the number of
nodes so far, which has not been handed out before, or is refused for want of
room.  Pushing and copying a node hand out the number of nodes before the call;
attaching a subtree, and building over expressions of other arenas, hand out
further numbers first.  A number that is handed out stands for a node, except for
the one that fills the arena. -/
theorem numbers_issued (before : Arena) :
    (∀ node, Leads (push node) before (before.Issues []) before.Refuses) ∧
    (∀ source children, (before.shape source).admits children.length →
      Leads (rebuild source children) before (before.Issues [])
        before.Refuses) ∧
    (∀ (source : Arena) root, source.WellFormed →
      Leads (attach (source.detach root)) before
        (fun id after => ∃ earlier, before.Issues earlier id after)
        before.Refuses) ∧
    (∀ (forest : Forest) index (node : Node Expression),
      forest.arena index = before →
      (∀ other, other ≠ index → (forest.arena other).WellFormed) →
      Leads (Edit.build index node.shape node.children) forest
        (fun result after => result.arena = index ∧ ∃ earlier,
          before.Issues earlier result.node (after.arena index))
        fun error after => ∃ cause, error = .capacity cause ∧
          before.Refuses cause (after.arena index)) := by
  have one {allocation : Allocation NodeId}
      (works : AllocatesByPushes allocation before
        fun id issued => issued = [id]) :
      Leads allocation before (before.Issues []) before.Refuses := by
    apply works.leads
    rintro id _ after pushes rfl
    exact pushes.issues
  refine ⟨fun node => one (byPushes_push node before),
    fun source children fits => one (byPushes_rebuild fits), ?_, ?_⟩
  · intro source root wellFormed
    apply (byPushes_attach wellFormed root before).leads
    rintro id _ after pushes ⟨earlier, rfl⟩
    exact ⟨earlier, pushes.issues⟩
  · rintro forest index node rfl sources
    refine Leads.imp_error (Leads.imp
      (Edit.byPushes_build sources node.admits_children) ?_) ?_
    · rintro result after ⟨_, pushes, ⟨place, earlier, rfl⟩, -⟩
      exact ⟨place, earlier, pushes.issues⟩
    · rintro error after ⟨⟨cause, rfl, lacks⟩, pushes⟩
      exact ⟨cause, rfl, lacks, lacks.reportsCapacity, pushes⟩

end Arena

namespace Session

variable {session : Session}

/-- A copy of the call, and a copy of it from another arena, get the next numbers. -/
theorem numbers_issued_nestedCall :
    let before := nestedCall.forest.arena 0
    let other := nestedCall.forest.arena 1
    (before.shape ⟨1⟩).admits 1 ∧ other.WellFormed ∧
      (∃ after, rebuild ⟨1⟩ [⟨2⟩] before = .ok ⟨3⟩ after ∧
        before.Issues [] ⟨3⟩ after) ∧
      ∃ after earlier, attach (before.detach ⟨2⟩) other = .ok ⟨3⟩ after ∧
        other.Issues earlier ⟨3⟩ after := by
  intro before other
  have wellFormed := reachable_nestedCall.valid.wellFormed
  have fits : (before.shape ⟨1⟩).admits 1 := by decide +kernel
  refine ⟨fits, wellFormed 1, ⟨_, rfl, ?_⟩, ?_⟩
  · exact ((numbers_issued before).2.1 ⟨1⟩ [⟨2⟩] fits).of_ok rfl
  · have attaches := (numbers_issued other).2.2.1 before ⟨2⟩ (wellFormed 0)
    obtain ⟨earlier, issues⟩ := attaches.of_ok rfl
    exact ⟨_, earlier, rfl, issues⟩

/-- In the arena of a held expression, all numbers that have ever been handed out
are those of its nodes, each once.  They stand for nodes as long as the arena is not
full. -/
theorem Reachable.held_issued (reachable : session.Reachable) (index : Nat) :
    ∃ issued, Arena.empty.Pushes issued (session.forest.arena index) ∧
      ∀ expression ∈ session.held, expression.arena = index →
        expression.node ∈ issued ∧
          ((session.forest.arena index).size ≠ UInt32.size →
            expression.node.isValid = true) := by
  have wellFormed := reachable.valid.wellFormed
  have fits := (wellFormed index).size_le
  have grows : Arena.empty.Extends (session.forest.arena index) :=
    ⟨List.nil_prefix, List.nil_prefix, List.nil_prefix⟩
  obtain ⟨issued, pushes⟩ := grows.exists_pushes fits
  refine ⟨issued, pushes, ?_⟩
  rintro expression held rfl
  have inside : expression.node.index < _ :=
    (reachable.valid.places expression held).contains wellFormed
  refine ⟨pushes.mem_of_contains inside, fun room => ?_⟩
  rw [NodeId.isValid_iff]
  omega

/-! ### A full arena -/

/-- A literal gets the number of nodes so far. -/
theorem perform_literal (forest : Forest) (index : Nat) (literal : Literal)
    (room : (forest.arena index).size < UInt32.size) :
    ∃ after, (Operation.build index (.value literal)).perform forest =
        .ok (.atRoot index (NodeId.ofIndex (forest.arena index).size)) after ∧
      (after.arena index).size = (forest.arena index).size + 1 := by
  have pushed := push_of_room _ (.value literal) room
  have built : Edit.within index (Arena.allocate (.value literal) []) forest =
      .ok (NodeId.ofIndex (forest.arena index).size) (forest.put index
        { forest.arena index with
          nodes := (forest.arena index).nodes.push (.value literal) }) := by
    simp only [Edit.within, Arena.allocate, pushed]
  refine ⟨_, bind_of_ok built, ?_⟩
  rw [Forest.arena_put_same]
  exact Array.size_push _

/-- A session in which a caller has built so many literals, one after the other. -/
def literals : Nat → Session
  | 0 => start
  | count + 1 => (literals count).operate (.build 0 (.value (.bool true)))

theorem reachable_literals (count : Nat) : (literals count).Reachable := by
  induction count with
  | zero => exact .start
  | succ count ih =>
      exact .move ih (.operate _ (by simp [Operation.operands, Node.children]))

theorem size_literals {count : Nat} (fits : count ≤ UInt32.size) :
    ((literals count).forest.arena 0).size = count := by
  induction count with
  | zero => rfl
  | succ count ih =>
      have size := ih (by omega)
      obtain ⟨after, run, grown⟩ :=
        perform_literal (literals count).forest 0 (.bool true) (by omega)
      rw [literals, forest_operate, run, finalState, grown, size]

/-- The number that stands for no node is handed out, to a caller who builds one
literal more than there are numbers that stand for nodes. -/
theorem invalid_issued_literals :
    (literals 4294967295).Reachable ∧
      ((literals 4294967295).forest.arena 0).size = 4294967295 ∧
      ∃ after,
        (Operation.build 0 (.value (.bool true))).perform
            (literals 4294967295).forest = .ok (.atRoot 0 .invalid) after ∧
          NodeId.invalid.isValid = false := by
  have size : ((literals 4294967295).forest.arena 0).size = 4294967295 :=
    size_literals (by decide)
  obtain ⟨after, run, -⟩ := perform_literal (literals 4294967295).forest 0
    (.bool true) (by rw [size]; decide)
  rw [size] at run
  exact ⟨reachable_literals _, size, after, run, rfl⟩

end Session

end FormulaEngine
