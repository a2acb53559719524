import FormulaEngine.Text.Inspection
import FormulaEngine.Text.Quoted

/-!
# Names

Formulas hold names of three sorts: the function that a call looks up, the
reference that the context resolves, and the parameter that a function declares.
Names are equal when their texts are, and are ordered by code points.
-/

namespace FormulaEngine

/-- The name by which a call looks up its function. -/
structure FunctionName where
  text : String
  deriving DecidableEq, Repr, Inhabited

/-- A key that the evaluation context resolves to a value. -/
structure Reference where
  text : String
  deriving DecidableEq, Repr, Inhabited

/-- The declared name of a parameter. -/
structure ParameterName where
  text : String
  deriving DecidableEq, Repr, Inhabited

def FunctionName.inspect (name : FunctionName) : String :=
  Text.wrapped "FunctionName" (Text.quoted name.text)

def Reference.inspect (reference : Reference) : String :=
  Text.wrapped "Reference" (Text.quoted reference.text)

def ParameterName.inspect (name : ParameterName) : String :=
  Text.wrapped "ParameterName" (Text.quoted name.text)

/-- The reference by which a lambda body refers to a parameter. -/
def ParameterName.toReference (name : ParameterName) : Reference :=
  ⟨name.text⟩

theorem ParameterName.toReference_injective :
    Function.Injective ParameterName.toReference := by
  rintro ⟨first⟩ ⟨second⟩ same
  exact congrArg ParameterName.mk (Reference.mk.inj same)

/-- The reference that shares its text with a function name. -/
def FunctionName.toReference (name : FunctionName) : Reference :=
  ⟨name.text⟩

instance : Ord FunctionName :=
  ⟨fun left right => compare left.text right.text⟩

instance : Ord Reference :=
  ⟨fun left right => compare left.text right.text⟩

instance : Ord ParameterName :=
  ⟨fun left right => compare left.text right.text⟩

end FormulaEngine
