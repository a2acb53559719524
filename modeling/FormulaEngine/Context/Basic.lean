import FormulaEngine.Context.Config
import FormulaEngine.Context.Registry
import FormulaEngine.Value.Conversion

/-!
# Contexts

A context is what an evaluation asks for functions, references, conversions and
the order of values.  A basic context is a set of tables; a host may put rules of
its own in front of one; and a scope adds local bindings to any context.  A
binding to a reference is looked up in the parent of the scope, and a binding to
a function can be called by its name.
-/

namespace FormulaEngine

variable {Label : Type}

/-- A context of tables and settings.  A truthiness rule, where there is one,
decides about every value. -/
structure BasicContext (Label : Type) where
  functions : Registry Label := .empty
  references : Table Reference (Value Label) := .empty
  config : ContextConfig := {}
  converter : Converter Label := .basic
  truthiness : Option (Forest → Value Label → Bool) := none

/-- The rules that a host puts in front of a basic context: references that it
refuses to look up, with the reason, and its own order of values. -/
structure HostRules (Label : Type) where
  refuse : Reference → Option String
  order? : Forest → Value Label → Value Label → Option Ordering

/-- A context: tables, tables behind the rules of a host, or local bindings over
a parent. -/
inductive Context (Label : Type)
  | basic (tables : BasicContext Label)
  | hosted (rules : HostRules Label) (tables : BasicContext Label)
  | scope (parent : Context Label) (bindings : Table Reference (Value Label))

namespace BasicContext

/-- The function under a name: a registered one, or a function value that a
reference of the name holds. -/
def function (tables : BasicContext Label) (name : FunctionName) :
    Except EvalError (Callable Label) :=
  match tables.functions.find? name with
  | some callable => .ok callable
  | none =>
      match tables.references.find? name.toReference with
      | some (.function _ callable) => .ok callable
      | _ => .error (.of (.unknownFunction name.text))

def inspect (tables : BasicContext Label) : String :=
  Text.openRecord "BasicContext"
    [("functions", tables.functions.size.repr),
      ("references", tables.references.size.repr),
      ("config", tables.config.inspect),
      ("converter", tables.converter.name)]

end BasicContext

namespace Context

/-- The tables below all scopes and host rules. -/
def tables : Context Label → BasicContext Label
  | basic tables => tables
  | hosted _ tables => tables
  | scope parent _ => tables parent

/-- The kind of numbers of a context. -/
def kind (context : Context Label) : NumberKind :=
  context.tables.config.kind

/-- The math context of a context. -/
def math (context : Context Label) : MathContext :=
  context.tables.config.math

/-- The function under a name. -/
def function : Context Label → FunctionName → Except EvalError (Callable Label)
  | basic tables, name => tables.function name
  | hosted _ tables, name => tables.function name
  | scope parent bindings, name =>
      match bindings.find? name.toReference with
      | some (.function _ callable) => .ok callable
      | _ => function parent name

/-- The value of a reference, if it has one. -/
def reference :
    Context Label → Reference → Except EvalError (Option (Value Label))
  | basic tables, name => .ok (tables.references.find? name)
  | hosted rules tables, name =>
      match rules.refuse name with
      | some reason => .error (.custom reason)
      | none => .ok (tables.references.find? name)
  | scope parent bindings, name =>
      match bindings.find? name with
      | some (.reference outer) => reference parent outer
      | some value => .ok (some value)
      | none => reference parent name

/-- The value of a reference that must have one. -/
def resolve (context : Context Label) (name : Reference) :
    Except EvalError (Value Label) := do
  match ← context.reference name with
  | some value => return value
  | none => throw (.of (.unknownReference name.text))

/-- Convert a value to a declared type. -/
def convert (context : Context Label) (forest : Forest) (value : Value Label)
    (target : ValueType) : Except EvalError (Value Label) :=
  match context.tables.converter.convert? forest value target context.kind with
  | some converted => .ok converted
  | none => .error (.of (.conversion (value.write forest) target.name))

/-- The order of two values that are not both numbers. -/
def order? (context : Context Label) (forest : Forest)
    (left right : Value Label) : Option Ordering :=
  match context with
  | basic _ => left.order? right
  | hosted rules _ => rules.order? forest left right
  | scope parent _ => order? parent forest left right

/-- The truthiness rule that decides about values in a context, if there is one.
A host evaluates by the default rules. -/
def truthiness? :
    Context Label → Option (Forest → Value Label → Bool)
  | basic tables => tables.truthiness
  | hosted _ _ => none
  | scope parent _ => truthiness? parent

/-- Put local bindings over a context; the last binding of a name counts. -/
def bind (parent : Context Label) (bindings : List (Reference × Value Label)) :
    Context Label :=
  scope parent (.ofList bindings)

end Context

end FormulaEngine
