import FormulaEngine.Formula.Name

/-!
# Parameters

A parameter declares the type that its arguments are converted to, how many
arguments it takes, and how they are prepared.  The arity of a list of
parameters says which argument counts it accepts; a variable parameter must
stand last.
-/

namespace FormulaEngine

/-- The declared type of a parameter or of the result of a function.  Numbers
are of the kind of the context, and `any` admits every value unchanged. -/
inductive ValueType
  | any
  | bool
  | text
  | number
  | integer
  | bigInteger
  | reference
  | expression
  | function
  deriving DecidableEq, Repr, Inhabited

namespace ValueType

def name : ValueType → String
  | any => "any"
  | bool => "boolean"
  | text => "text"
  | number => "number"
  | integer => "integer"
  | bigInteger => "big integer"
  | reference => "reference"
  | expression => "expression"
  | function => "function"

/-- The types by name. -/
def catalogue : List (String × ValueType) :=
  [any, bool, text, number, integer, bigInteger, reference, expression,
    function].map fun type => (type.name, type)

def inspect : ValueType → String
  | any => "Any"
  | bool => "Bool"
  | text => "Text"
  | number => "Number"
  | integer => "Integer"
  | bigInteger => "BigInteger"
  | reference => "Reference"
  | expression => "Expression"
  | function => "Function"

end ValueType

/-- How many arguments a parameter takes: one, at most one, or any number of
trailing ones. -/
inductive Cardinality
  | required
  | optional
  | variadic
  deriving DecidableEq, Repr

namespace Cardinality

/-- The mark of a cardinality in a written parameter. -/
def mark : Cardinality → String
  | required => ""
  | optional => "?"
  | variadic => "..."

def inspect : Cardinality → String
  | required => "Required"
  | optional => "Optional"
  | variadic => "Variable"

end Cardinality

/-- The switches of argument preparation: pass the argument expression itself
instead of its value, and resolve a bare reference to the value it names. -/
structure ParameterFlags where
  unevaluated : Bool := false
  resolvesReferences : Bool := false
  deriving DecidableEq, Repr, Inhabited

def ParameterFlags.inspect (flags : ParameterFlags) : String :=
  let names :=
    (if flags.unevaluated then ["UNEVALUATED"] else []) ++
      (if flags.resolvesReferences then ["RESOLVE_REFERENCES"] else [])
  Text.wrapped "ParameterFlags"
    (if names = [] then "0x0" else " | ".intercalate names)

/-- A declared parameter. -/
structure Parameter where
  name : ParameterName
  type : ValueType
  cardinality : Cardinality
  flags : ParameterFlags
  deriving DecidableEq, Repr

namespace Parameter

def write (parameter : Parameter) : String :=
  parameter.name.text ++ parameter.cardinality.mark ++ ": " ++
    parameter.type.name

def inspect (parameter : Parameter) : String :=
  Text.record "Parameter"
    [("name", parameter.name.inspect), ("ty", parameter.type.inspect),
      ("cardinality", parameter.cardinality.inspect),
      ("flags", parameter.flags.inspect)]

/-- Replace the switches of a parameter. -/
def withFlags (parameter : Parameter) (flags : ParameterFlags) : Parameter :=
  { parameter with flags }

def isVariadic (parameter : Parameter) : Bool :=
  parameter.cardinality == .variadic

end Parameter

/-- The argument counts that a list of parameters accepts: at least `least`, and
at most `most` if there is an upper bound. -/
structure Arity where
  least : Nat
  most : Option Nat
  deriving DecidableEq, Repr

/-- A variable parameter that others follow. -/
structure MisplacedVariadic where
  parameter : ParameterName
  deriving DecidableEq, Repr

def MisplacedVariadic.message (misplaced : MisplacedVariadic) : String :=
  "variable parameter `" ++ misplaced.parameter.text ++
    "` must be the last parameter"

namespace Arity

/-- The arity of a list of parameters: required ones count toward both bounds,
optional ones toward the upper bound, and a variable one at the end removes the
upper bound. -/
def of (parameters : List Parameter) : Except MisplacedVariadic Arity :=
  match parameters.dropLast.find? Parameter.isVariadic with
  | some misplaced => .error ⟨misplaced.name⟩
  | none =>
      .ok {
        least := parameters.countP (·.cardinality == .required)
        most :=
          if parameters.any Parameter.isVariadic then none
          else some parameters.length }

def accepts (arity : Arity) (count : Nat) : Bool :=
  decide (arity.least ≤ count) &&
    match arity.most with
    | some most => decide (count ≤ most)
    | none => true

end Arity

end FormulaEngine
