import FormulaEngine.Proofs.Arena.Import
import FormulaEngine.Proofs.Expression.Placement

/-!
# Adoption

An edit works in one arena.  That arena only grows, whether the edit succeeds or
fails, and no other arena changes.  Before an edit allocates, it adopts the
expressions that it is given: those of its own arena as they are, the others by
copying.  The tree of an adopted expression is that of its source.
-/

namespace FormulaEngine

open Stateful

namespace Forest

/-- The arena of an index has grown, and no other arena has changed. -/
structure GrowsAt (index : Nat) (before after : Forest) : Prop where
  grows : (before.arena index).Extends (after.arena index)
  others : ∀ other, other ≠ index → after.arena other = before.arena other

instance (index : Nat) : IsPreorder Forest (GrowsAt index) where
  refl _ := ⟨Arena.Extends.refl _, fun _ _ => rfl⟩
  trans _ _ _ first second :=
    ⟨first.grows.trans second.grows, fun other different =>
      (second.others other different).trans (first.others other different)⟩

section Growth

variable {before after : Forest} {index : Nat} {expression : Expression}

theorem GrowsAt.extends (grows : before.GrowsAt index after) (other : Nat) :
    (before.arena other).Extends (after.arena other) := by
  by_cases same : other = index
  · rw [same]
    exact grows.grows
  · rw [grows.others other same]
    exact Arena.Extends.refl _

theorem GrowsAt.places (grows : before.GrowsAt index after)
    (wellFormed : before.WellFormed) (places : before.Places expression) :
    after.Places expression :=
  Arena.Chain.extend (wellFormed expression.arena)
    (grows.extends expression.arena) places

theorem GrowsAt.tree (grows : before.GrowsAt index after)
    (wellFormed : before.WellFormed) (afterWellFormed : after.WellFormed)
    (places : before.Places expression) :
    after.tree expression = before.tree expression :=
  (grows.extends expression.arena).tree (wellFormed expression.arena)
    (afterWellFormed expression.arena) (places.contains wellFormed)

theorem WellFormed.of_others (wellFormed : before.WellFormed)
    (edited : (after.arena index).WellFormed)
    (others : ∀ other, other ≠ index → after.arena other = before.arena other) :
    after.WellFormed := by
  intro other
  by_cases same : other = index
  · rw [same]
    exact edited
  · rw [others other same]
    exact wellFormed other

end Growth

/-- An edit that wants an extent, with lists of at most `longest` entries, has
failed for want of capacity; the forest is still well-formed. -/
def Exhausts (wanted : Extent) (longest : Nat) (error : TreeError)
    (after : Forest) : Prop :=
  after.WellFormed ∧
    ∃ cause, error = .capacity cause ∧ cause.Exceeds wanted longest

/-- An edit succeeds where what it wants fits. -/
theorem succeeds_of_fits {Result : Type} {edit : Edit Result} {before : Forest}
    {wanted : Extent} {returns : Result → Forest → Prop}
    (leads : Leads edit before returns (Exhausts wanted 65535))
    (enough : wanted.Fits) :
    ∃ result after, edit before = .ok result after ∧ returns result after :=
  leads.succeeds fun _ _ ⟨_, cause, _, exceeds⟩ =>
    enough.not_exceeds (Nat.le_refl 65535) cause exceeds

/-- The extent of what is copied when an expression is adopted. -/
def importExtent (forest : Forest) (index : Nat) (expression : Expression) :
    Extent :=
  if expression.arena = index then 0
  else (forest.arena expression.arena).copyExtent expression.node

/-- The extent of what is copied when expressions are adopted, each by itself. -/
def importsExtent (forest : Forest) (index : Nat)
    (expressions : List Expression) : Extent :=
  (expressions.map (forest.importExtent index)).sum

/-- The number of nodes that are copied when an expression is adopted. -/
noncomputable def importedNodes (forest : Forest) (index : Nat)
    (expression : Expression) : Nat :=
  if expression.arena = index then 0
  else (forest.arena expression.arena).reachableCount expression.node

theorem WellFormed.nodes_importsExtent {forest : Forest}
    (wellFormed : forest.WellFormed) (index : Nat)
    (expressions : List Expression) :
    (forest.importsExtent index expressions).nodes =
      (expressions.map (forest.importedNodes index)).sum := by
  rw [importsExtent, Extent.nodes_sum]
  congr 1
  apply List.map_congr_left
  intro expression _
  rw [importExtent, importedNodes]
  split
  · rfl
  · exact (wellFormed expression.arena).nodes_copyExtent

/-- A node stands for an expression in the arena of an index. -/
structure Adopts (before : Forest) (index : Nat) (expression : Expression)
    (id : NodeId) (after : Forest) : Prop where
  contains : (after.arena index).Contains id
  tree_eq : (after.arena index).tree id = before.tree expression
  kept : expression.arena = index → id = expression.node

namespace Adopts

variable {before middle after : Forest} {index : Nat} {expression : Expression}
  {id : NodeId}

theorem extend (adopts : before.Adopts index expression id middle)
    (grows : middle.GrowsAt index after) (wellFormed : middle.WellFormed)
    (afterWellFormed : after.WellFormed) :
    before.Adopts index expression id after where
  contains := grows.grows.contains adopts.contains
  tree_eq :=
    (grows.grows.tree (wellFormed index) (afterWellFormed index)
      adopts.contains).trans adopts.tree_eq
  kept := adopts.kept

theorem of_growsAt (adopts : middle.Adopts index expression id after)
    (grows : before.GrowsAt index middle) (wellFormed : before.WellFormed)
    (middleWellFormed : middle.WellFormed) (places : before.Places expression) :
    before.Adopts index expression id after where
  contains := adopts.contains
  tree_eq :=
    adopts.tree_eq.trans (grows.tree wellFormed middleWellFormed places)
  kept := adopts.kept

end Adopts

theorem GrowsAt.importsExtent {before after : Forest} {index : Nat}
    (grows : before.GrowsAt index after) (expressions : List Expression) :
    after.importsExtent index expressions =
      before.importsExtent index expressions := by
  simp only [Forest.importsExtent]
  congr 1
  apply List.map_congr_left
  intro expression _
  simp only [importExtent]
  split
  · rfl
  next different => rw [grows.others _ different]

theorem trees_of_adopts {before after : Forest} {index : Nat}
    {expressions : List Expression} {ids : List NodeId}
    (adopts : List.Forall₂ (fun expression id =>
      before.Adopts index expression id after) expressions ids) :
    ids.map (after.arena index).tree = expressions.map before.tree := by
  induction adopts with
  | nil => rfl
  | cons first _ ih => rw [List.map_cons, List.map_cons, first.tree_eq, ih]

theorem contains_of_adopts {before after : Forest} {index : Nat}
    {expressions : List Expression} {ids : List NodeId}
    (adopts : List.Forall₂ (fun expression id =>
      before.Adopts index expression id after) expressions ids) :
    ∀ id ∈ ids, (after.arena index).Contains id := by
  induction adopts with
  | nil => simp
  | cons first _ ih =>
      intro id member
      rcases List.mem_cons.mp member with rfl | member
      · exact first.contains
      · exact ih id member

end Forest

namespace Edit

open Forest

section Growth

variable {Result : Type} {index : Nat}

theorem grows_within {allocation : Allocation Result}
    (appends : Along Arena.Extends allocation) :
    Along (GrowsAt index) (within index allocation) := by
  intro forest
  have grows := appends (forest.arena index)
  cases run : allocation (forest.arena index) with
  | ok result arena =>
      rw [run] at grows
      simp only [within, run, finalState]
      exact ⟨by rwa [arena_put_same], fun other different =>
        arena_put_other forest arena different⟩
  | error cause arena =>
      rw [run] at grows
      simp only [within, run, finalState]
      exact ⟨by rwa [arena_put_same], fun other different =>
        arena_put_other forest arena different⟩

theorem grows_adopt (index : Nat) (expression : Expression) :
    Along (GrowsAt index) (adopt index expression) := by
  unfold adopt
  split
  · exact along_pure _
  · exact along_get_bind fun forest => grows_within (Arena.appends_attach _)

theorem grows_adoptAll (index : Nat) (expressions : List Expression) :
    Along (GrowsAt index) (adoptAll index expressions) := by
  induction expressions with
  | nil => exact along_pure _
  | cons expression rest ih =>
      exact along_bind (grows_adopt index expression) fun _ =>
        along_bind ih fun _ => along_pure _

end Growth

section Outcome

variable {before : Forest} {index longest : Nat} {wanted : Extent}

theorem leads_within {Result : Type} {allocation : Allocation Result}
    {returns : Result → Arena → Prop} (wellFormed : before.WellFormed)
    (keeps : ∀ result after, returns result after → after.WellFormed)
    (leads : Leads allocation (before.arena index) returns
      (Arena.Exhausts wanted longest)) :
    Leads (within index allocation) before
      (fun result after =>
        after.WellFormed ∧ returns result (after.arena index))
      (Exhausts wanted longest) := by
  have put (arena : Arena) (edited : arena.WellFormed) :
      (before.put index arena).WellFormed :=
    wellFormed.of_others (by rwa [arena_put_same]) fun other different =>
      arena_put_other before arena different
  cases run : allocation (before.arena index) with
  | ok result arena =>
      have returned := leads.of_ok run
      simp only [Leads, within, run, arena_put_same]
      exact ⟨put arena (keeps result arena returned), returned⟩
  | error cause arena =>
      have failed := leads.of_error run
      simp only [Leads, within, run]
      exact ⟨put arena failed.wellFormed, cause, rfl, failed.exceeds⟩

/-- An expression of another arena is adopted by copying what is below it. -/
theorem leads_adopt_foreign {expression : Expression}
    (wellFormed : before.WellFormed) (foreign : expression.arena ≠ index)
    (room : (before.arena index).extent +
      (before.arena expression.arena).copyExtent expression.node ≤ wanted)
    (long : 65535 ≤ longest) :
    Leads (adopt index expression) before
      (fun id after =>
        after.WellFormed ∧
          (after.arena index).extent = (before.arena index).extent +
            (before.arena expression.arena).copyExtent expression.node ∧
          id = (before.arena expression.arena).image (before.arena index).size
            expression.node expression.node ∧
          (before.arena expression.arena).Copies
            ((before.arena expression.arena).image (before.arena index).size
              expression.node)
            ((before.arena expression.arena).Reaches expression.node)
            (after.arena index))
      (Exhausts wanted longest) := by
  unfold adopt
  rw [if_neg foreign]
  apply leads_get_bind
  refine (leads_within wellFormed (fun _ _ returned => returned.1)
    (Arena.leads_attach_detach (wellFormed expression.arena) (wellFormed index)
      room long)).imp ?_
  rintro id after ⟨afterWellFormed, -, copied⟩
  exact ⟨afterWellFormed, copied⟩

theorem leads_adopt {expression : Expression} (wellFormed : before.WellFormed)
    (places : before.Places expression)
    (room : (before.arena index).extent + before.importExtent index expression ≤
      wanted)
    (long : 65535 ≤ longest) :
    Leads (adopt index expression) before
      (fun id after =>
        after.WellFormed ∧ before.Adopts index expression id after ∧
          (after.arena index).extent =
            (before.arena index).extent + before.importExtent index expression)
      (Exhausts wanted longest) := by
  by_cases own : expression.arena = index
  · subst own
    simp only [adopt, importExtent, if_true]
    exact leads_pure ⟨wellFormed,
      ⟨places.contains wellFormed, rfl, fun _ => rfl⟩, (Extent.add_zero _).symm⟩
  · simp only [importExtent, if_neg own] at room ⊢
    refine (leads_adopt_foreign wellFormed own room long).imp ?_
    rintro id after ⟨afterWellFormed, extent, rfl, copies⟩
    exact ⟨afterWellFormed,
      ⟨copies.contains _ .refl,
        copies.tree (wellFormed expression.arena) (afterWellFormed index),
        fun same => (own same).elim⟩,
      extent⟩

theorem leads_adoptAll {expressions : List Expression}
    (wellFormed : before.WellFormed)
    (places : ∀ expression ∈ expressions, before.Places expression)
    (room : (before.arena index).extent +
      before.importsExtent index expressions ≤ wanted)
    (long : 65535 ≤ longest) :
    Leads (adoptAll index expressions) before
      (fun ids after =>
        before.GrowsAt index after ∧ after.WellFormed ∧
          List.Forall₂ (fun expression id =>
            before.Adopts index expression id after) expressions ids ∧
          (after.arena index).extent = (before.arena index).extent +
            before.importsExtent index expressions)
      (Exhausts wanted longest) := by
  -- Each adoption changes the forest for those that follow; trees and extents
  -- of the rest are the same in it.
  induction expressions generalizing before with
  | nil =>
      exact leads_pure ⟨refl_of _ _, wellFormed, .nil, (Extent.add_zero _).symm⟩
  | cons expression rest ih =>
      have split : before.importsExtent index (expression :: rest) =
          before.importExtent index expression +
            before.importsExtent index rest := by
        simp [importsExtent]
      rw [split, ← Extent.add_assoc] at room
      rw [split]
      apply leads_bind ((leads_adopt wellFormed
        (places expression (by simp)) (Extent.le_of_add_le room) long).along
          (grows_adopt index expression))
      rintro id middle ⟨grows, middleWellFormed, adopts, extent⟩
      have restPlaces : ∀ other ∈ rest, before.Places other :=
        fun other member => places other (by simp [member])
      have same := grows.importsExtent rest
      apply leads_bind (ih middleWellFormed
        (fun other member => grows.places wellFormed (restPlaces other member))
        (by rwa [extent, same]))
      rintro ids after ⟨growsOn, afterWellFormed, adoptsRest, afterExtent⟩
      refine leads_pure ⟨trans_of _ grows growsOn, afterWellFormed, ?_, ?_⟩
      · refine .cons
          (adopts.extend growsOn middleWellFormed afterWellFormed) ?_
        refine ((List.forall₂_and_left _ _).mpr
          ⟨restPlaces, adoptsRest⟩).imp ?_
        rintro other id ⟨otherPlaces, adopts⟩
        exact adopts.of_growsAt grows wellFormed middleWellFormed otherPlaces
      · rw [afterExtent, extent, same, Extent.add_assoc]

end Outcome

end Edit

end FormulaEngine
