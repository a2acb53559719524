import FormulaEngine.Proofs.Expression.Adoption

/-!
# Building and editing

A new node has the shape asked for over the adopted children.  An edit that is
refused leaves everything as it was; any other failure is one of capacity.
-/

namespace FormulaEngine

open Stateful

namespace Forest

/-- An edit has failed: for want of capacity, or because it was refused and has
done nothing. -/
def Fails (before : Forest) (wanted : Extent) (longest : Nat)
    (error : TreeError) (after : Forest) : Prop :=
  Exhausts wanted longest error after ∨
    (after = before ∧ ∀ cause, error ≠ .capacity cause)

theorem Fails.wellFormed {before after : Forest} {wanted : Extent}
    {longest : Nat} {error : TreeError}
    (fails : before.Fails wanted longest error after)
    (wellFormed : before.WellFormed) : after.WellFormed := by
  rcases fails with exhausts | ⟨rfl, -⟩
  · exact exhausts.1
  · exact wellFormed

/-- No edit fails for a child that is missing. -/
theorem Fails.not_missing {before after : Forest} {wanted : Extent}
    {longest : Nat} {error : TreeError}
    (fails : before.Fails wanted longest error after) (index count : Nat) :
    error ≠ .capacity (.missing index count) := by
  rcases fails with ⟨-, cause, rfl, exceeds⟩ | ⟨-, refused⟩
  · intro missing
    obtain rfl := TreeError.capacity.inj missing
    exact exceeds
  · exact refused _

/-- A refused edit does nothing. -/
theorem Fails.eq_of_refused {before after : Forest} {wanted : Extent}
    {longest : Nat} {error : TreeError}
    (fails : before.Fails wanted longest error after)
    (refused : ∀ cause, error ≠ .capacity cause) : after = before := by
  rcases fails with ⟨-, cause, rfl, -⟩ | ⟨same, -⟩
  · exact (refused cause rfl).elim
  · exact same

/-- An expression of a shape over adopted children is new in a forest. -/
structure Produces (before : Forest) (shape : Shape)
    (children : List Expression) (result : Expression) (after : Forest) :
    Prop where
  grows : before.GrowsAt result.arena after
  wellFormed : after.WellFormed
  places : after.Places result
  shape_eq : after.shape result = shape
  adopts : List.Forall₂ (fun child id =>
    before.Adopts result.arena child id after) children
      ((after.arena result.arena).children result.node)

theorem Produces.tree_eq {before after : Forest} {shape : Shape}
    {children : List Expression} {result : Expression}
    (produces : before.Produces shape children result after) :
    after.tree result = .node shape (children.map before.tree) := by
  rw [tree, (produces.wellFormed result.arena).tree_eq,
    trees_of_adopts produces.adopts, ← produces.shape_eq, Forest.shape]

/-- The extent of a new node over expressions. -/
def buildExtent (forest : Forest) (index : Nat) (shape : Shape)
    (children : List Expression) : Extent :=
  forest.importsExtent index children + shape.extent children.length

/-- An expression is built as the root of a tree of its own; it is the latest node
of its arena. -/
structure Builds (before : Forest) (index : Nat) (shape : Shape)
    (children : List Expression) (result : Expression) (after : Forest) :
    Prop where
  produces : before.Produces shape children result after
  atRoot : result = .atRoot index result.node
  latest : result.node.index + 1 = (after.arena index).size
  extent_eq : (after.arena index).extent =
    (before.arena index).extent + before.buildExtent index shape children

/-- The extent of new children for an expression: the copies of foreign ones, the
new node, and its new ancestors. -/
def replacementExtent (forest : Forest) (expression : Expression)
    (children : List Expression) : Extent :=
  forest.importsExtent expression.arena children +
    ((forest.shape expression).sharingExtent children.length +
      (forest.arena expression.arena).pathExtent expression.path)

/-- An expression is replaced by one with other children, and its ancestors
with it. -/
structure Replaces (before : Forest) (expression : Expression)
    (children : List Expression) (result : Expression) (after : Forest) :
    Prop where
  produces : before.Produces (before.shape expression) children result after
  arena_eq : result.arena = expression.arena
  rebuilt : (before.arena expression.arena).Rebuilt
    (after.arena expression.arena) result.node expression.path result.path
  extent_eq : (after.arena expression.arena).extent =
    (before.arena expression.arena).extent +
      before.replacementExtent expression children

end Forest

namespace Edit

open Forest

section Growth

theorem grows_build (index : Nat) (shape : Shape)
    (children : List Expression) :
    Along (GrowsAt index) (build index shape children) :=
  along_bind (grows_adoptAll index children) fun ids =>
    along_bind (grows_within (Arena.appends_allocate shape ids)) fun _ =>
      along_pure _

theorem grows_rebuild (expression : Expression) (children : List Expression) :
    Along (GrowsAt expression.arena) (rebuild expression children) :=
  along_bind (grows_adoptAll expression.arena children) fun ids =>
    grows_within (Arena.appends_rebuildPlaced expression ids)

theorem grows_setChildren (expression : Expression)
    (children : List Expression) :
    Along (GrowsAt expression.arena) (setChildren expression children) := by
  apply along_get_bind
  intro forest
  dsimp only
  split
  · split
    · exact grows_rebuild expression children
    · exact along_throw _
  · exact grows_rebuild expression children

theorem grows_replaceChild (expression : Expression) (index : Nat)
    (child : Expression) :
    Along (GrowsAt expression.arena) (replaceChild expression index child) := by
  apply along_get_bind
  intro forest
  dsimp only
  split
  · exact grows_setChildren expression _
  · exact along_throw _

end Growth

section Outcome

variable {before : Forest} {index longest : Nat} {wanted : Extent}

theorem leads_build {shape : Shape} {children : List Expression}
    (wellFormed : before.WellFormed)
    (places : ∀ child ∈ children, before.Places child)
    (fits : shape.admits children.length)
    (room : (before.arena index).extent +
      before.buildExtent index shape children ≤ wanted)
    (long : 65535 ≤ longest) (short : children.length ≤ longest)
    (shortParameters : ∀ parameters, shape = .lambda parameters →
      parameters.length ≤ longest) :
    Leads (build index shape children) before
      (before.Builds index shape children) (Exhausts wanted longest) := by
  rw [buildExtent, ← Extent.add_assoc] at room
  apply leads_bind
    (leads_adoptAll wellFormed places (Extent.le_of_add_le room) long)
  rintro ids middle ⟨grows, middleWellFormed, adopts, extent⟩
  have count : ids.length = children.length := adopts.length_eq.symm
  rw [← extent, ← count] at room
  rw [← count] at fits short
  apply leads_bind ((leads_within middleWellFormed
    (fun _ _ returned => returned.1.wellFormed)
    (Arena.leads_allocate (middleWellFormed index) fits
      (contains_of_adopts adopts) room
      (fun _ _ => short) shortParameters)).along
        (grows_within (Arena.appends_allocate shape ids)))
  rintro id after ⟨growsOn, afterWellFormed, adds, afterExtent⟩
  refine leads_pure ⟨⟨trans_of (GrowsAt index) grows growsOn, afterWellFormed,
    adds.contains, adds.shape_eq, ?_⟩, rfl, ?_, ?_⟩
  · change List.Forall₂ _ children ((after.arena index).children id)
    rw [adds.children_eq]
    exact adopts.imp fun child id adopted =>
      adopted.extend growsOn middleWellFormed afterWellFormed
  · exact (congrArg (· + 1) adds.index_eq).trans adds.size_eq.symm
  · rw [afterExtent, extent, count, Extent.add_assoc, buildExtent]

theorem leads_rebuild {expression : Expression} {children : List Expression}
    (wellFormed : before.WellFormed) (places : before.Places expression)
    (childrenPlaces : ∀ child ∈ children, before.Places child)
    (fits : (before.shape expression).admits children.length)
    (room : (before.arena expression.arena).extent +
      before.replacementExtent expression children ≤ wanted)
    (long : 65535 ≤ longest) (short : children.length ≤ longest) :
    Leads (rebuild expression children) before
      (before.Replaces expression children) (Exhausts wanted longest) := by
  rw [replacementExtent, ← Extent.add_assoc] at room
  apply leads_bind
    (leads_adoptAll wellFormed childrenPlaces (Extent.le_of_add_le room) long)
  rintro ids middle ⟨grows, middleWellFormed, adopts, extent⟩
  have count : ids.length = children.length := adopts.length_eq.symm
  have sourceWellFormed := wellFormed expression.arena
  have inside := places.contains wellFormed
  have sameShape : (middle.arena expression.arena).shape expression.node =
      before.shape expression :=
    grows.grows.shape sourceWellFormed inside
  have samePath := grows.grows.pathExtent sourceWellFormed places
  rw [← count] at short
  apply Leads.imp ((leads_within middleWellFormed
    (fun _ _ returned => returned.1)
    (Arena.leads_rebuildPlaced (middleWellFormed expression.arena)
      (grows.places wellFormed places) (by rwa [sameShape, count])
      (contains_of_adopts adopts)
      (by rwa [extent, sameShape, samePath, count]) long short)).along
        (grows_within (Arena.appends_rebuildPlaced expression ids)))
  rintro result after ⟨growsOn, afterWellFormed, -, sameArena, contains, shape_eq,
    children_eq, rebuilt, extent_eq⟩
  have rebuilt := rebuilt.of_extends sourceWellFormed grows.grows places
  rw [sameShape, samePath, extent, count, Extent.add_assoc] at extent_eq
  refine ⟨⟨?_, afterWellFormed, ?_, ?_, ?_⟩, sameArena, rebuilt, extent_eq⟩
  · rw [sameArena]
    exact trans_of (GrowsAt expression.arena) grows growsOn
  · rw [Places, sameArena]
    exact rebuilt.chain places contains
  · rw [Forest.shape, sameArena, shape_eq, sameShape]
  · rw [sameArena, children_eq]
    exact adopts.imp fun child id adopted =>
      adopted.extend growsOn middleWellFormed afterWellFormed

theorem setChildren_eq (expression : Expression) (children : List Expression) :
    setChildren expression children before =
      (match (before.shape expression).arity with
      | some expected =>
          if expected = children.length then rebuild expression children
          else throw (TreeError.arity (before.shape expression).label expected
            children.length)
      | none => rebuild expression children) before :=
  rfl

theorem setChildren_of_admits {expression : Expression}
    {children : List Expression}
    (fits : (before.shape expression).admits children.length) :
    setChildren expression children before =
      rebuild expression children before := by
  unfold Shape.admits at fits
  split at fits
  next fixed =>
    simp only [setChildren_eq, fixed, if_pos (beq_iff_eq.mp fits)]
  next free => simp only [setChildren_eq, free]

theorem setChildren_of_not_admits {expression : Expression}
    {children : List Expression}
    (misfit : ¬ (before.shape expression).admits children.length) :
    ∃ expected, setChildren expression children before =
      .error (.arity (before.shape expression).label expected children.length)
        before := by
  unfold Shape.admits at misfit
  split at misfit
  next expected fixed =>
    rw [beq_iff_eq] at misfit
    refine ⟨expected, ?_⟩
    simp only [setChildren_eq, fixed, if_neg misfit]
    rfl
  next => exact (misfit rfl).elim

/-- New children either fit and replace the old ones, or are refused. -/
theorem leads_setChildren {expression : Expression}
    {children : List Expression} (wellFormed : before.WellFormed)
    (places : before.Places expression)
    (childrenPlaces : ∀ child ∈ children, before.Places child)
    (room : (before.arena expression.arena).extent +
      before.replacementExtent expression children ≤ wanted)
    (long : 65535 ≤ longest) (short : children.length ≤ longest) :
    Leads (setChildren expression children) before
      (before.Replaces expression children) (before.Fails wanted longest) := by
  by_cases fits : (before.shape expression).admits children.length
  · have leads : Leads (rebuild expression children) before
        (before.Replaces expression children) (before.Fails wanted longest) :=
      (leads_rebuild wellFormed places childrenPlaces fits room long
        short).imp_error fun _ _ => Or.inl
    simpa only [Leads, setChildren_of_admits fits] using leads
  · obtain ⟨expected, refused⟩ := setChildren_of_not_admits fits
    simp only [Leads, refused]
    exact Or.inr ⟨rfl, by simp⟩

/-- A new child either replaces an old one, or is refused for its index. -/
theorem leads_replaceChild {expression child : Expression} {position : Nat}
    (wellFormed : before.WellFormed) (places : before.Places expression)
    (childPlaces : before.Places child)
    (room : (before.arena expression.arena).extent +
      before.replacementExtent expression
        ((before.children expression).set position child) ≤ wanted)
    (long : 65535 ≤ longest) :
    Leads (replaceChild expression position child) before
      (before.Replaces expression
        ((before.children expression).set position child))
      (before.Fails wanted longest) := by
  apply leads_get_bind
  dsimp only
  split
  next inside =>
    apply leads_setChildren wellFormed places _ room long
    · rw [List.length_set, Forest.children, List.length_mapIdx]
      exact Nat.le_trans (Arena.length_children_le _ _) long
    · intro other member
      rcases List.mem_or_eq_of_mem_set member with old | rfl
      · exact places.of_mem_children old
      · exact childPlaces
  next outside => exact leads_throw (Or.inr ⟨rfl, by simp⟩)

end Outcome

end Edit

end FormulaEngine
