import FormulaEngine.Value.Basic

/-!
# Tables of names

Functions are registered and references are bound under names; a later entry of
a name replaces an earlier one.  Entries of other names are not affected.
-/

namespace FormulaEngine

/-- A table of entries under distinct keys. -/
structure Table (Key Entry : Type) where
  entries : List (Key × Entry) := []

namespace Table

variable {Key Entry : Type} [DecidableEq Key]

/-- The table without entries. -/
def empty : Table Key Entry :=
  ⟨[]⟩

instance : Inhabited (Table Key Entry) :=
  ⟨empty⟩

/-- The entry under a key. -/
def find? (table : Table Key Entry) (key : Key) : Option Entry :=
  (table.entries.find? fun entry => decide (entry.1 = key)).map Prod.snd

/-- Enter something under a key, in place of what stood there. -/
def insert (table : Table Key Entry) (key : Key) (entry : Entry) :
    Table Key Entry :=
  ⟨(key, entry) :: table.entries.filter fun other => decide (other.1 ≠ key)⟩

/-- Enter several things one after the other. -/
def insertAll (table : Table Key Entry) (entries : List (Key × Entry)) :
    Table Key Entry :=
  entries.foldl (fun table entry => table.insert entry.1 entry.2) table

/-- The table of several entries; the last one under a key counts. -/
def ofList (entries : List (Key × Entry)) : Table Key Entry :=
  empty.insertAll entries

/-- The number of entries. -/
def size (table : Table Key Entry) : Nat :=
  table.entries.length

/-- The keys in increasing order. -/
def sortedKeys [Ord Key] (table : Table Key Entry) : List Key :=
  (table.entries.map Prod.fst).mergeSort fun left right =>
    (compare left right).isLE

@[simp]
theorem find?_empty (key : Key) :
    (empty : Table Key Entry).find? key = none :=
  rfl

@[simp]
theorem find?_insert_same (table : Table Key Entry) (key : Key)
    (entry : Entry) : (table.insert key entry).find? key = some entry := by
  simp [find?, insert]

theorem find?_insert_other (table : Table Key Entry) {key other : Key}
    (entry : Entry) (different : other ≠ key) :
    (table.insert key entry).find? other = table.find? other := by
  have reverse : key ≠ other := fun equal => different equal.symm
  simp only [find?, insert, List.find?_cons, reverse, decide_false,
    List.find?_filter]
  congr 2
  funext candidate
  by_cases equal : candidate.1 = other
  · simp [equal, different]
  · simp [equal]

end Table

variable {Label : Type}

/-- The functions that calls look up by name. -/
abbrev Registry (Label : Type) :=
  Table FunctionName (Callable Label)

namespace Registry

/-- The registry of the built-in functions. -/
def builtins : Registry Label :=
  Table.ofList [(⟨"false"⟩, .constantFalse), (⟨"starts-with"⟩, .startsWith)]

def inspect (registry : Registry Label) : String :=
  Text.record "FunctionRegistry"
    [("functions",
      Text.bracketed
        (registry.sortedKeys.map fun name => Text.quoted name.text))]

end Registry

end FormulaEngine
