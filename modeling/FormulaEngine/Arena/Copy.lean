import FormulaEngine.Arena.Basic

/-!
# Copies between arenas

A subtree is copied into another arena in two steps.  First it is detached: its
nodes are listed children first, and every child is given by its slot in the
list.  Then the list is attached: its nodes are allocated one after the other,
and slots become node numbers.  A node that occurs at several places of the
subtree is listed once, so the copy shares what the source shares.
-/

namespace FormulaEngine

/-- A node without its arena: its shape, and the slots of its children among the
nodes listed before it. -/
structure DetachedNode where
  shape : Shape
  slots : List Nat

namespace Arena

/-- Extend a list of nodes, latest first, by the nodes that are reachable from
`id` and not in it yet; children come before their parents. -/
def gather (source : Arena) : (depth : Nat) → List NodeId → NodeId → List NodeId
  | 0, gathered, _ => gathered
  | depth + 1, gathered, id =>
      if id ∈ gathered then gathered
      else id :: (source.children id).foldl (source.gather depth) gathered

/-- The distinct nodes that are reachable from a node, left to right, children
before their parents. -/
def postOrder (source : Arena) (root : NodeId) : List NodeId :=
  (source.gather (root.index + 1) [] root).reverse

/-- The subtree of a node without its arena; the root is the last node. -/
def detach (source : Arena) (root : NodeId) : List DetachedNode :=
  let order := source.postOrder root
  order.map fun id =>
    ⟨source.shape id, (source.children id).map fun child => order.idxOf child⟩

/-- Allocate detached nodes one after the other.  The nodes of the slots so far
are `ids`; the result lists the nodes of all slots. -/
def attachAll (ids : List NodeId) :
    List DetachedNode → Allocation (List NodeId)
  | [] => return ids
  | node :: rest => do
      let children ← node.slots.mapM (entry ids)
      let id ← allocate node.shape children
      attachAll (ids ++ [id]) rest

/-- Allocate a detached subtree. -/
def attach (detached : List DetachedNode) : Allocation NodeId := do
  let ids ← attachAll [] detached
  return ids.getLast?.getD .invalid

end Arena

end FormulaEngine
