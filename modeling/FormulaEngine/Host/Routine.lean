import FormulaEngine.Evaluation.Script

/-!
# A host of ready-made routines

A small host whose code is put together from ready-made routines: bodies that
report on their arguments, call functions back or ask the context, rearrangements
of argument lists, and tests of single arguments.  It also offers converters,
truthiness rules and rules for contexts of its own.  What a host is asked for by
name is listed in catalogues.
-/

namespace FormulaEngine

/-- The rearrangements of argument lists. -/
inductive Rearrangement
  | reverse
  | dropFirst
  | double
  | refuse
  deriving DecidableEq, Repr

/-- The rearrangements by name. -/
def Rearrangement.catalogue : List (String × Rearrangement) :=
  [("reverse", reverse), ("drop-first", dropFirst), ("double", double),
    ("fail", refuse)]

/-- The tests of single arguments. -/
inductive ArgumentTest
  | isNumeric
  | isText
  | isTrue
  | never
  deriving DecidableEq, Repr

/-- The tests by name. -/
def ArgumentTest.catalogue : List (String × ArgumentTest) :=
  [("numeric", isNumeric), ("text", isText), ("truthy", isTrue),
    ("none", never)]

/-- The labels of the code of this host. -/
inductive Routine
  /-- The written arguments, separated by commas. -/
  | echo
  /-- The names of the types of the arguments, separated by commas. -/
  | types
  /-- The number of arguments. -/
  | count
  /-- The floating sum of the arguments that are numbers. -/
  | sum
  /-- A fixed value. -/
  | constant (value : Value Routine)
  /-- The argument at an index. -/
  | argument (index : Nat)
  /-- A failure, perhaps with a note. -/
  | fail (message : String) (note : Option String)
  /-- The first argument applied to the others. -/
  | invoke
  /-- The first argument applied to the others and then to the result. -/
  | twice
  /-- The value of the first argument, which may be an expression. -/
  | force
  /-- The value of the second or the third argument, by the truth of the first. -/
  | choose
  /-- The value of the first argument, or the message of a failure of the host. -/
  | attempt
  /-- What the first argument, a reference, stands for. -/
  | dereference
  /-- The first argument converted to a type. -/
  | convert (target : ValueType)
  /-- The order of the first two arguments. -/
  | compare
  /-- The place of the first argument, an expression, in its tree. -/
  | position
  /-- The numeric settings of the context. -/
  | settings
  /-- The first argument, a number, negated in the kind of the context. -/
  | negate
  | rearrangement (rearrangement : Rearrangement)
  | test (test : ArgumentTest)

namespace Routine

/-- The bodies that need no setting, by name. -/
def catalogue : List (String × Routine) :=
  [("echo", echo), ("types", types), ("count", count), ("sum", sum),
    ("invoke", invoke), ("twice", twice), ("force", force), ("if", choose),
    ("try", attempt), ("deref", dereference), ("compare", compare),
    ("position", position), ("context", settings), ("number", negate)]

/-- The values of this host. -/
abbrev HostValue :=
  Value Routine

/-- The scripts of this host. -/
abbrev HostScript :=
  Script Routine

/-- The argument at an index, which must be there. -/
def argumentAt (arguments : List HostValue) (index : Nat) :
    HostScript HostValue :=
  match arguments[index]? with
  | some value => .give value
  | none => .refuse ("no argument " ++ index.repr)

/-- Write arguments, separated by commas. -/
def writeArguments (forest : Forest) (arguments : List HostValue) : String :=
  ",".intercalate (arguments.map (·.write forest))

/-- The function that a value must be. -/
def functionOf (forest : Forest) (value : HostValue) :
    HostScript (Callable Routine) :=
  match value with
  | .function _ callable => .give callable
  | _ => .refuse ("not a function: " ++ value.write forest)

/-- The value of an expression, and any other value itself. -/
def forced (value : HostValue) : HostScript HostValue :=
  match value with
  | .expression expression => .valueOf expression
  | _ => .give value

/-- Turn a failure of the host into its message. -/
def messageOf (result : Except EvalError HostValue) : HostScript HostValue :=
  match result with
  | .error ⟨.custom _, message, _⟩ => .give (.text message)
  | _ => .done result

def orderName : Option Ordering → String
  | some .lt => "less"
  | some .eq => "equal"
  | some .gt => "greater"
  | none => "none"

/-- Add a number to a floating sum; other values add nothing. -/
def addToSum (total : Float) (value : HostValue) : Float :=
  match value with
  | .number numeral => total + numeral.toOperand.toFloat
  | _ => total

/-- Describe the place of an expression in its tree. -/
def describePlace (forest : Forest) (expression : Expression) : String :=
  (forest.shape expression).label ++ "@" ++
    ((expression.index?.map Nat.repr).getD "-") ++ " in " ++
    (forest.shape expression.root).label

/-- What a body does with its arguments in a context. -/
def body (routine : Routine) (forest : Forest) (context : Context Routine)
    (arguments : List HostValue) : HostScript HostValue :=
  match routine with
  | echo => .give (.text (writeArguments forest arguments))
  | types =>
      .give (.text (",".intercalate (arguments.map (·.type.name))))
  | count => .give (.integer (Int64.ofNat arguments.length))
  | sum => .give (.number (.floating (arguments.foldl addToSum 0.0)))
  | constant value => .give value
  | argument index => argumentAt arguments index
  | fail message note =>
      .fail (note.toList.foldl EvalError.withNote (.custom message))
  | invoke => do
      let callable ← functionOf forest (← argumentAt arguments 0)
      .resultOf callable (arguments.drop 1)
  | twice => do
      let callable ← functionOf forest (← argumentAt arguments 0)
      let result ← .resultOf callable (arguments.drop 1)
      .resultOf callable [result]
  | force => do forced (← argumentAt arguments 0)
  | choose => do
      let truth ← .truthOf (← argumentAt arguments 0)
      forced (← argumentAt arguments (if truth then 1 else 2))
  | attempt => do
      let value ← argumentAt arguments 0
      (forced value).resume messageOf
  | dereference => do
      let value ← argumentAt arguments 0
      match value with
      | .reference name => do
          let found ← .done (context.reference name)
          return found.getD (.text "absent")
      | _ => .refuse ("not a reference: " ++ value.write forest)
  | convert target => do
      let value ← argumentAt arguments 0
      .done (context.convert forest value target)
  | compare => do
      let left ← argumentAt arguments 0
      let right ← argumentAt arguments 1
      return .text (orderName (context.order? forest left right))
  | position => do
      let value ← argumentAt arguments 0
      match value with
      | .expression expression =>
          return .text (describePlace forest expression)
      | _ => .refuse ("not an expression: " ++ value.write forest)
  | settings =>
      .give (.text
        (context.kind.name ++ "/" ++ context.math.precision.toNat.repr))
  | negate => do
      let value ← argumentAt arguments 0
      match value with
      | .number numeral =>
          .done (((numeral.negate context.kind).map .number).mapError
            NumberError.toEvalError)
      | _ => .refuse ("not a number: " ++ value.write forest)
  | rearrangement _ | test _ => .refuse "no body"

/-- What becomes of an argument list. -/
def rearrange (routine : Routine) (arguments : List HostValue) :
    HostScript (List HostValue) :=
  match routine with
  | rearrangement .reverse => .give arguments.reverse
  | rearrangement .dropFirst => .give (arguments.drop 1)
  | rearrangement .double => .give (arguments ++ arguments)
  | rearrangement .refuse => .refuse "mapper failed"
  | _ => .give arguments

/-- Whether an argument is kept; a value whose truth cannot be judged is not. -/
def keeps (routine : Routine) (value : HostValue) : HostScript Bool :=
  match routine with
  | test .isNumeric => .give value.isNumeric
  | test .isText => .give value.toText?.isSome
  | test .isTrue =>
      .judge value fun answer => .give (answer.toOption.getD false)
  | test .never => .give false
  | _ => .give true

/-- The host of the routines. -/
def host : Host Routine where
  body := body
  rearrange routine _ _ := rearrange routine
  keeps routine _ _ := keeps routine

end Routine

variable {Label : Type}

/-- The converter that returns every value as it is. -/
def Converter.identity : Converter Label where
  name := "Identity"
  convert? _ value _ _ := some value

/-- The converter that refuses every conversion. -/
def Converter.refusing : Converter Label where
  name := "Refuse"
  convert? _ _ _ _ := none

/-- The converters of this host by name. -/
def Converter.catalogue : List (String × Converter Label) :=
  [("identity", identity), ("refuse", refusing)]

/-- Only the truth value `true` is true. -/
def strictTruthiness (_forest : Forest) (value : Value Label) : Bool :=
  value.toBool? == some true

/-- Whatever is written with at least one character is true. -/
def writtenTruthiness (forest : Forest) (value : Value Label) : Bool :=
  value.write forest != ""

/-- The truthiness rules of this host by name. -/
def truthinessCatalogue : List (String × (Forest → Value Label → Bool)) :=
  [("strict", strictTruthiness), ("nonempty", writtenTruthiness)]

/-- The rules of a host that adds none of its own. -/
def HostRules.plain : HostRules Label where
  refuse _ := none
  order? _ left right := left.order? right

/-- The rules of a host that orders all values as they are written and keeps
references to itself whose names start with an exclamation mark. -/
def HostRules.written : HostRules Label where
  refuse name :=
    if name.text.toList.head? = some '!' then
      some ("forbidden reference " ++ name.text)
    else none
  order? forest left right :=
    some (compare (left.write forest) (right.write forest))

end FormulaEngine
