import FormulaEngine.Value.Conversion

/-!
# Sorts of values

Operators yield truth values, texts and numbers.  Stored formulas and references
are the values that an evaluation may still have to follow, and a stored formula
comes out of a conversion only if it was put in.
-/

namespace FormulaEngine

variable {Label : Type}

namespace Value

/-- A truth value, a text or a number. -/
def IsScalar : Value Label → Prop
  | .bool _ | .text _ | .number _ => True
  | _ => False

/-- A value is no stored formula. -/
def IsEvaluated (value : Value Label) : Prop :=
  value.type ≠ .expression

/-- A value is neither a stored formula nor a reference. -/
def IsPlain (value : Value Label) : Prop :=
  value.type ≠ .expression ∧ value.type ≠ .reference

variable {value : Value Label}

theorem IsScalar.isPlain (scalar : value.IsScalar) : value.IsPlain := by
  cases value with
  | reference name => exact False.elim scalar
  | expression placed => exact False.elim scalar
  | _ => simp [IsPlain, type]

theorem IsPlain.isEvaluated (isPlain : value.IsPlain) : value.IsEvaluated :=
  isPlain.1

/-- By the basic rules a value either is kept or becomes one that holds no
expression. -/
theorem convert?_eq_or {forest : Forest} {result : Value Label}
    {target : ValueType} {kind : NumberKind}
    (succeeds : value.convert? forest target kind = some result) :
    result = value ∨ result.type ≠ .expression ∧ result.type ≠ .function := by
  cases target with
  | any => exact .inl (Option.some.inj succeeds).symm
  | expression | function =>
      simp only [convert?, keep?, Option.ite_none_right_eq_some,
        Option.some.injEq] at succeeds
      exact .inl succeeds.2.symm
  | _ =>
      obtain ⟨content, -, rfl⟩ := Option.map_eq_some_iff.mp succeeds
      exact .inr (by simp [type])

/-- By the basic rules a value becomes one of the type that is asked for. -/
theorem type_of_convert? {forest : Forest} {result : Value Label}
    {target : ValueType} {kind : NumberKind}
    (succeeds : value.convert? forest target kind = some result) :
    target = .any ∨ result.type = target := by
  cases target with
  | any => exact .inl rfl
  | expression | function =>
      simp only [convert?, keep?, Option.ite_none_right_eq_some,
        Option.some.injEq] at succeeds
      obtain ⟨isOfType, rfl⟩ := succeeds
      exact .inr isOfType
  | _ =>
      obtain ⟨content, -, rfl⟩ := Option.map_eq_some_iff.mp succeeds
      exact .inr rfl

end Value

end FormulaEngine
