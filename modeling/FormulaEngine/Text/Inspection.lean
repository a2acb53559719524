/-!
# Inspection texts

Data are shown for inspection in a fixed layout: a name with fields in braces, a
name with a content in parentheses, and items in brackets.
-/

namespace FormulaEngine

namespace Text

/-- Lay out fields in braces after a name. -/
def record (name : String) (fields : List (String × String)) : String :=
  name ++ " \x7b " ++
    ", ".intercalate (fields.map fun field => field.1 ++ ": " ++ field.2) ++
    " \x7d"

/-- Lay out the shown fields of a record that has others too. -/
def openRecord (name : String) (fields : List (String × String)) : String :=
  name ++ " \x7b " ++
    ", ".intercalate (fields.map fun field => field.1 ++ ": " ++ field.2) ++
    ", .. \x7d"

/-- Lay out a content in parentheses after a name. -/
def wrapped (name content : String) : String :=
  name ++ "(" ++ content ++ ")"

/-- Lay out items in brackets. -/
def bracketed (items : List String) : String :=
  "[" ++ ", ".intercalate items ++ "]"

end Text

end FormulaEngine
