import FormulaEngine.Formula.Shape

/-!
# Stored nodes

An arena numbers its nodes by words of 32 bits.  A stored node refers to its
children by number; the arguments of a call and the parameters of a lambda lie
in flat storages and are referred to by ranges of at most 65535 entries.
-/

namespace FormulaEngine

/-- The number of a node in its arena. -/
structure NodeId where
  raw : UInt32
  deriving DecidableEq, Repr

namespace NodeId

/-- The number that stands for no node. -/
def invalid : NodeId :=
  ⟨0xffffffff⟩

instance : Inhabited NodeId :=
  ⟨invalid⟩

/-- The index of a node in the storage of its arena. -/
def index (id : NodeId) : Nat :=
  id.raw.toNat

/-- The number of the node at an index. -/
def ofIndex (index : Nat) : NodeId :=
  ⟨UInt32.ofNat index⟩

/-- Test whether a number stands for a node. -/
def isValid (id : NodeId) : Bool :=
  id != invalid

def inspect (id : NodeId) : String :=
  if id.isValid then Text.wrapped "ExprId" id.index.repr
  else "ExprId::INVALID"

end NodeId

/-- A range of entries in a flat storage. -/
structure StorageRange where
  start : UInt32
  length : UInt16
  deriving DecidableEq, Repr

namespace StorageRange

/-- The range without entries at the start of the storage. -/
def empty : StorageRange :=
  ⟨0, 0⟩

/-- The number of entries of a range. -/
def size (range : StorageRange) : Nat :=
  range.length.toNat

def isEmpty (range : StorageRange) : Bool :=
  range.length == 0

/-- The index of the first entry. -/
def first (range : StorageRange) : Nat :=
  range.start.toNat

/-- The index after the last entry. -/
def next (range : StorageRange) : Nat :=
  range.first + range.size

/-- The entries of a range, in order. -/
def slice {Entry : Type} (range : StorageRange) (storage : Array Entry) :
    List Entry :=
  (storage.extract range.first range.next).toList

def inspectArguments (range : StorageRange) : String :=
  Text.wrapped "ExprRange"
    (range.first.repr ++ ".." ++
      (range.start + range.length.toUInt32).toNat.repr)

def inspectParameters (range : StorageRange) : String :=
  Text.record "ParamRange"
    [("start", range.first.repr), ("len", range.size.repr)]

end StorageRange

/-- A node as an arena stores it. -/
inductive StoredNode
  | value (literal : Literal)
  | reference (name : Reference)
  | unary (op : UnaryOp) (operand : NodeId)
  | binary (op : BinaryOp) (left right : NodeId)
  | call (function : FunctionName) (arguments : StorageRange)
  | lambda (parameters : StorageRange) (body : NodeId)
  deriving DecidableEq

namespace StoredNode

def inspect : StoredNode → String
  | value literal => Text.wrapped "Value" literal.inspect
  | reference name => Text.wrapped "Reference" name.inspect
  | unary op operand =>
      Text.record "Unary" [("op", op.inspect), ("operand", operand.inspect)]
  | binary op left right =>
      Text.record "Binary"
        [("op", op.inspect), ("left", left.inspect), ("right", right.inspect)]
  | call function arguments =>
      Text.record "Call"
        [("function", function.inspect), ("args", arguments.inspectArguments)]
  | lambda parameters body =>
      Text.record "Lambda"
        [("params", parameters.inspectParameters), ("body", body.inspect)]

end StoredNode

end FormulaEngine
