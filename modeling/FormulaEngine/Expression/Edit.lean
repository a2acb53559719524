import FormulaEngine.Expression.Basic

/-!
# Building and editing

Building allocates one node over given expressions.  Editing replaces the
children of an expression: the node and all its ancestors are allocated anew,
what lies off the path is shared with the old tree, and the result is the new
node at the same place of the new tree.  Expressions of other arenas are copied
into the arena that is built in or edited, each by itself.  What an edit has
stored before it fails stays stored.
-/

namespace FormulaEngine

/-- The cause of a failed edit. -/
inductive TreeError
  /-- A node was given a number of children that it cannot have. -/
  | arity (label : String) (expected got : Nat)
  /-- A child index past the last child. -/
  | childIndex (index length : Nat)
  /-- An allocation failed. -/
  | capacity (cause : AllocationError)
  deriving DecidableEq, Repr

def TreeError.message : TreeError → String
  | arity label expected got =>
      label ++ " node expects " ++ expected.repr ++ " children, got " ++
        got.repr
  | childIndex index length =>
      "child index " ++ index.repr ++ " out of bounds for " ++ length.repr ++
        " children"
  | capacity cause => cause.message

/-- A computation on a forest that may fail; what it did before it failed stays
done. -/
abbrev Edit :=
  EStateM TreeError Forest

namespace Arena

/-- Put another node in the place of an entry, which must exist. -/
def replaceEntry (nodes : List NodeId) (index : Nat) (id : NodeId) :
    Allocation (List NodeId) :=
  if index < nodes.length then return nodes.set index id
  else throw (.missing index nodes.length)

/-- Allocate the ancestors of a replaced node anew, from the parent to the root,
each with the new child in place.  The result is the new path. -/
def rebuildPath (child : NodeId) : List Step → Allocation (List Step)
  | [] => return []
  | step :: path => do
      let siblings ←
        replaceEntry ((← get).children step.node) step.index child
      let ancestor ← rebuild step.node siblings
      let path ← rebuildPath ancestor path
      return ⟨ancestor, step.index⟩ :: path

/-- Allocate an expression anew over other children, and all its ancestors with
it. -/
def rebuildPlaced (expression : Expression) (children : List NodeId) :
    Allocation Expression := do
  let id ← rebuild expression.node children
  let path ← rebuildPath id expression.path
  return ⟨expression.arena, id, path⟩

end Arena

namespace Edit

/-- Allocate in the arena of an index. -/
def within {Result : Type} (index : Nat) (allocation : Allocation Result) :
    Edit Result := fun forest =>
  match allocation (forest.arena index) with
  | .ok result arena => .ok result (forest.put index arena)
  | .error cause arena => .error (.capacity cause) (forest.put index arena)

/-- The number of an expression's node in the arena of an index: the node itself
in its own arena, a copy in any other. -/
def adopt (index : Nat) (expression : Expression) : Edit NodeId := do
  if expression.arena = index then return expression.node
  else
    let source := (← get).arena expression.arena
    within index (Arena.attach (source.detach expression.node))

/-- Adopt expressions into an arena, left to right. -/
def adoptAll (index : Nat) : List Expression → Edit (List NodeId)
  | [] => return []
  | expression :: rest => do
      let id ← adopt index expression
      let ids ← adoptAll index rest
      return id :: ids

/-- Build a node of a shape over expressions in an arena. -/
def build (index : Nat) (shape : Shape) (children : List Expression) :
    Edit Expression := do
  let ids ← adoptAll index children
  let id ← within index (Arena.allocate shape ids)
  return .atRoot index id

/-- Replace the children of an expression, whatever their number. -/
def rebuild (expression : Expression) (children : List Expression) :
    Edit Expression := do
  let ids ← adoptAll expression.arena children
  within expression.arena (Arena.rebuildPlaced expression ids)

/-- Replace all children of an expression. -/
def setChildren (expression : Expression) (children : List Expression) :
    Edit Expression := do
  let shape := (← get).shape expression
  match shape.arity with
  | some expected =>
      if expected = children.length then rebuild expression children
      else throw (.arity shape.label expected children.length)
  | none => rebuild expression children

/-- Replace one child of an expression and keep the others. -/
def replaceChild (expression : Expression) (index : Nat)
    (child : Expression) : Edit Expression := do
  let children := (← get).children expression
  if index < children.length then
    setChildren expression (children.set index child)
  else throw (.childIndex index children.length)

/-- What a caller gets from an edit: the result and the forest after it, or the
failure. -/
def outcome {Result : Type} (edit : Edit Result) (forest : Forest) :
    Except TreeError (Result × Forest) :=
  match edit forest with
  | .ok result forest => .ok (result, forest)
  | .error error _ => .error error

end Edit

namespace Forest

/-- Build a node of a shape over expressions in an arena. -/
def build (forest : Forest) (index : Nat) (shape : Shape)
    (children : List Expression) : Except TreeError (Expression × Forest) :=
  (Edit.build index shape children).outcome forest

/-- Replace all children of an expression. -/
def setChildren (forest : Forest) (expression : Expression)
    (children : List Expression) : Except TreeError (Expression × Forest) :=
  (Edit.setChildren expression children).outcome forest

/-- Replace one child of an expression and keep the others. -/
def replaceChild (forest : Forest) (expression : Expression) (index : Nat)
    (child : Expression) : Except TreeError (Expression × Forest) :=
  (Edit.replaceChild expression index child).outcome forest

end Forest

end FormulaEngine
