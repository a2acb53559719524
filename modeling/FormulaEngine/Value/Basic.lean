import FormulaEngine.Expression.Equality
import FormulaEngine.Formula.Parameter

/-!
# Values

Evaluation consumes and produces values: constants, numbers of both kinds, fixed
and big integers, references and expressions that are passed on as such, and
functions.  A function is built in, a lambda, or host code with a declaration,
perhaps under another name or with its arguments rearranged.  Host code appears
in values only by labels; what a label does is up to the host.
-/

namespace FormulaEngine

/-- What a host declares about a function of its own. -/
structure Declaration where
  name : FunctionName
  parameters : List Parameter
  returns : ValueType := .any
  isPure : Bool := true
  deriving DecidableEq, Repr

mutual

/-- A value.  A function value that a host has made carries a tag, by which
equality tells function values apart; one that an evaluation has made is fresh
and carries none. -/
inductive Value (Label : Type)
  | bool (value : Bool)
  | text (value : String)
  | number (value : Numeral)
  | integer (value : Int64)
  | bigInteger (value : Int)
  | reference (name : Reference)
  | expression (expression : Expression)
  | function (tag : Option Nat) (callable : Callable Label)

/-- Everything that can be called. -/
inductive Callable (Label : Type)
  | constantFalse
  | startsWith
  | lambda (parameters : List Parameter) (body : Expression)
  | host (declaration : Declaration) (label : Label)
  | named (name : FunctionName) (inner : Callable Label)
  | mapped (label : Label) (inner : Callable Label)
  | filtered (label : Label) (inner : Callable Label)

end

variable {Label : Type}

namespace Callable

/-- The name of a function; lambdas have none. -/
def name? : Callable Label → Option FunctionName
  | constantFalse => some ⟨"false"⟩
  | startsWith => some ⟨"starts-with"⟩
  | lambda _ _ => none
  | host declaration _ => some declaration.name
  | named name _ => some name
  | mapped _ inner => name? inner
  | filtered _ inner => name? inner

/-- The function below all new names and rearrangements of arguments. -/
def core : Callable Label → Callable Label
  | named _ inner => core inner
  | mapped _ inner => core inner
  | filtered _ inner => core inner
  | callable => callable

/-- The parameters of the built-in test for a prefix of a text. -/
def startsWithParameters : List Parameter :=
  ["text", "prefix"].map fun name =>
    ⟨⟨name⟩, .text, .required, { resolvesReferences := true }⟩

/-- The declared parameters of a function. -/
def parameters : Callable Label → List Parameter
  | constantFalse => []
  | startsWith => startsWithParameters
  | lambda parameters _ => parameters
  | host declaration _ => declaration.parameters
  | named _ inner => parameters inner
  | mapped _ inner => parameters inner
  | filtered _ inner => parameters inner

/-- The declared type of the results of a function. -/
def returns : Callable Label → ValueType
  | constantFalse | startsWith => .bool
  | lambda _ _ => .any
  | host declaration _ => declaration.returns
  | named _ inner => returns inner
  | mapped _ inner => returns inner
  | filtered _ inner => returns inner

/-- The name of a function in reports about its arguments. -/
def displayName (callable : Callable Label) : String :=
  match callable.name? with
  | some name => name.text
  | none => "<lambda>"

def write (callable : Callable Label) : String :=
  match callable.name? with
  | some name => "<function " ++ name.text ++ ">"
  | none => "<lambda>"

def inspect (forest : Forest) : Callable Label → String
  | constantFalse => "FalseFunction"
  | startsWith => "StartsWithFunction"
  | lambda parameters body =>
      Text.record "LambdaFunction"
        [("parameters", Text.bracketed (parameters.map Parameter.inspect)),
          ("body", forest.inspect body)]
  | host declaration _ =>
      Text.openRecord "BasicFunction"
        [("name", declaration.name.inspect),
          ("parameters",
            Text.bracketed (declaration.parameters.map Parameter.inspect)),
          ("pure", writeBool declaration.isPure)]
  | named name inner =>
      Text.record "NamedFunction"
        [("name", name.inspect), ("inner", inspect forest inner)]
  | mapped _ inner => Text.wrapped "MappedParameters" (inspect forest inner)
  | filtered _ inner =>
      Text.wrapped "FilteredParameters" (inspect forest inner)

end Callable

/-- The parameter that receives the argument at an index; arguments past the end
of the list go to a variable parameter that stands last. -/
def parameterAt? (parameters : List Parameter) (index : Nat) :
    Option Parameter :=
  match parameters[index]? with
  | some parameter => some parameter
  | none => parameters.getLast?.filter Parameter.isVariadic

namespace Value

/-- The declared type that a value satisfies as it is. -/
def type : Value Label → ValueType
  | bool _ => .bool
  | text _ => .text
  | number _ => .number
  | integer _ => .integer
  | bigInteger _ => .bigInteger
  | reference _ => .reference
  | expression _ => .expression
  | function _ _ => .function

/-- The operand that a numeric value brings to a numeric step. -/
def toOperand? : Value Label → Option Operand
  | number value => some value.toOperand
  | integer value => some (.integer value)
  | bigInteger value => some (.bigInteger value)
  | _ => none

def isNumeric (value : Value Label) : Bool :=
  value.toOperand?.isSome

/-- The content of a text. -/
def toText? : Value Label → Option String
  | text value => some value
  | _ => none

/-- The content of a truth value. -/
def toBool? : Value Label → Option Bool
  | bool value => some value
  | _ => none

/-- Write a value.  Of an expression only the sort of its node is written. -/
def write (forest : Forest) : Value Label → String
  | bool value => writeBool value
  | text value => value
  | number value => value.write
  | integer value => Text.writeInt value.toInt
  | bigInteger value => Text.writeInt value
  | reference name => name.text
  | expression placed =>
      "<expression " ++ (forest.shape placed).label ++ ">"
  | function _ callable => callable.write

/-- Test whether two values are equal: numbers by value, expressions by their
trees, functions by their tags. -/
def areEqual (forest : Forest) : Value Label → Value Label → Bool
  | bool left, bool right => left == right
  | text left, text right => left == right
  | number left, number right => left.isEqual right
  | integer left, integer right => left == right
  | bigInteger left, bigInteger right => left == right
  | reference left, reference right => left == right
  | expression left, expression right => forest.areEqual left right
  | function (some left) _, function (some right) _ => left == right
  | _, _ => false

/-- The order of values that are not numbers: texts, truth values and references
each among themselves. -/
def order? : Value Label → Value Label → Option Ordering
  | text left, text right => some (compare left right)
  | bool left, bool right => some (compare left right)
  | reference left, reference right => some (compare left right)
  | _, _ => none

end Value

end FormulaEngine
