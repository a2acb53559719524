import FormulaEngine.Arena.Node

/-!
# Arenas

An arena is an append-only storage of nodes.  Nothing in it is removed or
overwritten, so a node number keeps its meaning.  A node is allocated after its
children.  Allocation fails when a storage is full, when a list of arguments or
parameters is too long, or when a child is missing; whatever was stored until
then stays.  A number that stands for no node reads as the literal `false`.
-/

namespace FormulaEngine

/-- An append-only storage of nodes, call arguments and lambda parameters. -/
structure Arena where
  nodes : Array StoredNode := #[]
  childLists : Array NodeId := #[]
  parameters : Array Parameter := #[]
  deriving Inhabited

/-- The cause of a failed allocation. -/
inductive AllocationError
  /-- Every node number is in use. -/
  | nodes
  /-- The storage of call arguments is full. -/
  | childLists
  /-- The storage of lambda parameters is full. -/
  | parameters
  /-- A call has more arguments than a range holds. -/
  | callArguments (count : Nat)
  /-- A lambda has more parameters than a range holds. -/
  | lambdaParameters (count : Nat)
  /-- An index past the end of a list of nodes. -/
  | missing (index count : Nat)
  deriving DecidableEq, Repr

def AllocationError.message : AllocationError → String
  | nodes => "arena capacity exceeded: too many expressions"
  | childLists => "arena capacity exceeded: too many expression list entries"
  | parameters => "arena capacity exceeded: too many parameters"
  | callArguments count =>
      "too many call arguments: " ++ count.repr ++ " exceeds 65535"
  | lambdaParameters count =>
      "too many lambda parameters: " ++ count.repr ++ " exceeds 65535"
  | missing index count =>
      "index out of bounds: the len is " ++ count.repr ++
        " but the index is " ++ index.repr

/-- A computation that allocates in an arena and may fail; what it stored before
it failed stays stored. -/
abbrev Allocation :=
  EStateM AllocationError Arena

namespace Arena

/-- The arena without nodes. -/
def empty : Arena :=
  ⟨#[], #[], #[]⟩

/-- The number of nodes of an arena. -/
def size (arena : Arena) : Nat :=
  arena.nodes.size

/-- The stored node of a number. -/
def stored (arena : Arena) (id : NodeId) : StoredNode :=
  arena.nodes.getD id.index (.value (.bool false))

/-- The shape of a stored node. -/
def shapeOf (arena : Arena) : StoredNode → Shape
  | .value literal => .value literal
  | .reference name => .reference name
  | .unary op _ => .unary op
  | .binary op _ _ => .binary op
  | .call function _ => .call function
  | .lambda parameters _ => .lambda (parameters.slice arena.parameters)

/-- The children of a stored node, left to right. -/
def childrenOf (arena : Arena) : StoredNode → List NodeId
  | .value _ | .reference _ => []
  | .unary _ operand => [operand]
  | .binary _ left right => [left, right]
  | .call _ arguments => arguments.slice arena.childLists
  | .lambda _ body => [body]

/-- The shape of a node. -/
def shape (arena : Arena) (id : NodeId) : Shape :=
  arena.shapeOf (arena.stored id)

/-- The children of a node, left to right. -/
def children (arena : Arena) (id : NodeId) : List NodeId :=
  arena.childrenOf (arena.stored id)

/-- The largest number of entries of a range. -/
def rangeLimit : Nat :=
  65535

/-- Test whether an entry at an index of a storage can be referred to. -/
def isAddressable (index : Nat) : Bool :=
  decide (index < UInt32.size)

/-- Allocate a stored node. -/
def push (node : StoredNode) : Allocation NodeId := fun arena =>
  if isAddressable arena.nodes.size then
    .ok (NodeId.ofIndex arena.nodes.size)
      { arena with nodes := arena.nodes.push node }
  else .error .nodes arena

/-- Append entries to a storage and make a range that holds them.  Entries that
are too many for a range stay stored. -/
def pushEntries {Entry : Type} (storage : Arena → Array Entry)
    (append : Arena → Arena) (full tooMany : AllocationError)
    (entries : List Entry) : Allocation StorageRange := fun arena =>
  let start := (storage arena).size
  if isAddressable start then
    if entries.length ≤ rangeLimit then
      .ok ⟨UInt32.ofNat start, UInt16.ofNat entries.length⟩ (append arena)
    else .error tooMany (append arena)
  else .error full arena

/-- Store the arguments of a call. -/
def pushArguments (arguments : List NodeId) : Allocation StorageRange :=
  pushEntries childLists
    (fun arena => { arena with childLists := arena.childLists ++ arguments })
    .childLists (.callArguments arguments.length) arguments

/-- Store the parameters of a lambda. -/
def pushParameters (parameters : List Parameter) : Allocation StorageRange :=
  pushEntries Arena.parameters
    (fun arena => { arena with parameters := arena.parameters ++ parameters })
    .parameters (.lambdaParameters parameters.length) parameters

/-- Allocate a call of stored arguments. -/
def pushCall (function : FunctionName) (arguments : List NodeId) :
    Allocation NodeId := do
  let range ← pushArguments arguments
  push (.call function range)

/-- The entry of a list of nodes at an index, which must lie inside. -/
def entry (nodes : List NodeId) (index : Nat) : Allocation NodeId :=
  match nodes[index]? with
  | some id => return id
  | none => throw (.missing index nodes.length)

/-- Allocate a node of a shape over children.  The shape says how many of them
are needed; a call takes all. -/
def allocate (shape : Shape) (children : List NodeId) : Allocation NodeId :=
  match shape with
  | .value literal => push (.value literal)
  | .reference name => push (.reference name)
  | .unary op => do
      push (.unary op (← entry children 0))
  | .binary op => do
      push (.binary op (← entry children 0) (← entry children 1))
  | .call function => pushCall function children
  | .lambda parameters => do
      let range ← pushParameters parameters
      push (.lambda range (← entry children 0))

/-- Allocate a copy of a node over other children.  A lambda keeps its stored
parameters. -/
def rebuild (id : NodeId) (children : List NodeId) : Allocation NodeId := do
  match (← get).stored id with
  | .value literal => push (.value literal)
  | .reference name => push (.reference name)
  | .unary op _ => push (.unary op (← entry children 0))
  | .binary op _ _ =>
      push (.binary op (← entry children 0) (← entry children 1))
  | .call function _ => pushCall function children
  | .lambda parameters _ => push (.lambda parameters (← entry children 0))

def inspect (arena : Arena) : String :=
  Text.wrapped "SharedArena" (arena.size.repr ++ " nodes")

/-- Unfold a node into a tree, to a depth. -/
def unfold (arena : Arena) : (depth : Nat) → NodeId → Tree
  | 0, _ => .node (.value (.bool false)) []
  | depth + 1, id =>
      .node (arena.shape id) ((arena.children id).map (arena.unfold depth))

/-- The tree of a node.  The children of a node are older than it, so its index
bounds the depth. -/
def tree (arena : Arena) (id : NodeId) : Tree :=
  arena.unfold (id.index + 1) id

end Arena

end FormulaEngine
