/-!
# Computations that may fail

A computation that is put together from others succeeds only if its parts do.
These lemmas take a success apart.
-/

namespace FormulaEngine

namespace Attempt

variable {Error Other First Second : Type} {first : Except Error First}

@[simp]
theorem error_bind (error : Error) (next : First → Except Error Second) :
    (.error error >>= next) = .error error :=
  rfl

@[simp]
theorem ok_bind (value : First) (next : First → Except Error Second) :
    (.ok value >>= next) = next value :=
  rfl

theorem of_bind {next : First → Except Error Second} {result : Second}
    (succeeds : first >>= next = .ok result) :
    ∃ value, first = .ok value ∧ next value = .ok result := by
  cases first with
  | error error => cases succeeds
  | ok value => exact ⟨value, rfl, succeeds⟩

theorem of_map {change : First → Second} {result : Second}
    (succeeds : first.map change = .ok result) :
    ∃ value, first = .ok value ∧ change value = result := by
  cases first with
  | error error => cases succeeds
  | ok value => exact ⟨value, rfl, Except.ok.inj succeeds⟩

theorem of_mapError {change : Error → Other} {result : First}
    (succeeds : first.mapError change = .ok result) : first = .ok result := by
  cases first with
  | error error => cases succeeds
  | ok value => cases succeeds; rfl

theorem of_toOption {value : First} (succeeds : first.toOption = some value) :
    first = .ok value := by
  cases first with
  | error error => cases succeeds
  | ok result => cases succeeds; rfl

end Attempt

end FormulaEngine
