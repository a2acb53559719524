import FormulaEngine.Context.Registry

/-!
# Looking up what was entered

What is found in a table of several entries is the last one under the key.
-/

namespace FormulaEngine

namespace Table

variable {Key Entry : Type} [DecidableEq Key]

theorem mem_of_find? {table : Table Key Entry} {key : Key} {entry : Entry}
    (found : table.find? key = some entry) : (key, entry) ∈ table.entries := by
  obtain ⟨⟨other, found⟩, first, rfl⟩ := Option.map_eq_some_iff.mp found
  have same : other = key := by simpa using List.find?_some first
  exact same ▸ List.mem_of_find?_eq_some first

theorem find?_insert (table : Table Key Entry) (key other : Key)
    (entry : Entry) :
    (table.insert key entry).find? other =
      if key = other then some entry else table.find? other := by
  split
  next same => rw [same, find?_insert_same]
  next different =>
    exact find?_insert_other table entry fun same => different same.symm

theorem find?_insertAll (table : Table Key Entry)
    (entries : List (Key × Entry)) (key : Key) :
    (table.insertAll entries).find? key =
      ((entries.reverse.find? (·.1 = key)).map Prod.snd).or
        (table.find? key) := by
  induction entries generalizing table with
  | nil => simp [insertAll]
  | cons entry entries ih =>
      have rest := ih (table.insert entry.1 entry.2)
      simp only [insertAll, List.foldl_cons] at rest ⊢
      rw [rest, find?_insert, List.reverse_cons, List.find?_append]
      cases entries.reverse.find? (·.1 = key) with
      | some found => rfl
      | none => by_cases same : entry.1 = key <;> simp [same]

theorem find?_ofList (entries : List (Key × Entry)) (key : Key) :
    (ofList entries).find? key =
      (entries.reverse.find? (·.1 = key)).map Prod.snd := by
  simp [ofList, find?_insertAll]

theorem mem_of_find?_ofList {entries : List (Key × Entry)} {key : Key}
    {entry : Entry} (found : (ofList entries).find? key = some entry) :
    (key, entry) ∈ entries := by
  rw [find?_ofList, Option.map_eq_some_iff] at found
  obtain ⟨⟨other, found⟩, first, rfl⟩ := found
  have same : other = key := by simpa using List.find?_some first
  rw [← same]
  exact List.mem_reverse.mp (List.mem_of_find?_eq_some first)

/-- Nothing is found under a key that was not entered. -/
theorem find?_ofList_eq_none_iff {entries : List (Key × Entry)} {key : Key} :
    (ofList entries).find? key = none ↔ key ∉ entries.map Prod.fst := by
  rw [find?_ofList, Option.map_eq_none_iff, List.find?_eq_none]
  simp only [List.mem_reverse, decide_eq_true_eq, List.mem_map, not_exists,
    not_and]

/-- Of entries under distinct keys, each is found. -/
theorem find?_ofList_of_nodup {entries : List (Key × Entry)}
    (distinct : (entries.map Prod.fst).Nodup) (key : Key) :
    (ofList entries).find? key = entries.lookup key := by
  rw [find?_ofList]
  induction entries with
  | nil => rfl
  | cons entry entries ih =>
      obtain ⟨absent, distinct⟩ := List.nodup_cons.mp distinct
      rw [List.reverse_cons, List.find?_append, List.lookup_cons]
      by_cases same : entry.1 = key
      · have later : entries.reverse.find? (·.1 = key) = none := by
          rw [List.find?_eq_none]
          rintro other member isKey
          refine absent (List.mem_map.mpr ⟨other, List.mem_reverse.mp member, ?_⟩)
          simpa [same] using isKey
        simp [later, same]
      · have different : (key == entry.1) = false := by
          simpa using fun equal : key = entry.1 => same equal.symm
        simp [same, different, ← ih distinct]

/-- Of entries under distinct keys, every one is found under its key. -/
theorem find?_ofList_of_mem {entries : List (Key × Entry)}
    (distinct : (entries.map Prod.fst).Nodup) {key : Key} {entry : Entry}
    (member : (key, entry) ∈ entries) : (ofList entries).find? key = some entry := by
  rw [find?_ofList_of_nodup distinct]
  induction entries with
  | nil => cases member
  | cons first entries ih =>
      obtain ⟨absent, distinct⟩ := List.nodup_cons.mp distinct
      rw [List.lookup_cons]
      rcases List.mem_cons.mp member with rfl | member
      · simp
      · have different : key ≠ first.1 := fun same =>
          absent (same ▸ List.mem_map_of_mem (f := Prod.fst) member)
        rw [beq_false_of_ne different]
        exact ih distinct member

end Table

end FormulaEngine
