import FormulaEngine.Arena.Copy

/-!
# Forests

A forest is a family of arenas, told apart by their indexes.  Every arena exists
from the start, without nodes.
-/

namespace FormulaEngine

/-- A family of arenas. -/
structure Forest where
  arenas : Array Arena := #[]
  deriving Inhabited

namespace Forest

/-- The arena of an index. -/
def arena (forest : Forest) (index : Nat) : Arena :=
  forest.arenas.getD index .empty

/-- Replace the arena of an index. -/
def put (forest : Forest) (index : Nat) (arena : Arena) : Forest :=
  let padding := Array.replicate (index + 1 - forest.arenas.size) Arena.empty
  ⟨(forest.arenas ++ padding).setIfInBounds index arena⟩

@[simp]
theorem arena_put_same (forest : Forest) (index : Nat) (arena : Arena) :
    (forest.put index arena).arena index = arena := by
  simp only [put, Forest.arena, Array.getD_eq_getD_getElem?]
  rw [Array.getElem?_setIfInBounds_self_of_lt (by simp; omega)]
  rfl

theorem arena_put_other (forest : Forest) {index other : Nat}
    (arena : Arena) (different : other ≠ index) :
    (forest.put index arena).arena other = forest.arena other := by
  simp only [put, Forest.arena, Array.getD_eq_getD_getElem?]
  rw [Array.getElem?_setIfInBounds_ne (by omega)]
  by_cases inside : other < forest.arenas.size
  · rw [Array.getElem?_append_left inside]
  · rw [Array.getElem?_append_right (by omega), Array.getElem?_replicate,
      Array.getElem?_eq_none (by omega)]
    split <;> rfl

end Forest

end FormulaEngine
