import FormulaEngine.Number.Numeral

/-!
# Relations

The six comparisons of numbers, as tests on an order that may be missing.
-/

namespace FormulaEngine

/-- The six comparisons. -/
inductive Relation
  | eq
  | ne
  | gt
  | ge
  | lt
  | le
  deriving DecidableEq, Repr

namespace Relation

/-- The symbol of a relation. -/
def symbol : Relation → String
  | eq => "=="
  | ne => "!="
  | gt => ">"
  | ge => ">="
  | lt => "<"
  | le => "<="

/-- Test whether an order satisfies a relation.  Without an order only `ne` is
satisfied. -/
def test (relation : Relation) : Option Ordering → Bool
  | none => relation == ne
  | some order =>
      match relation with
      | eq => order == .eq
      | ne => order != .eq
      | gt => order == .gt
      | ge => order != .lt
      | lt => order == .lt
      | le => order != .gt

end Relation

end FormulaEngine
