/-!
# Ordered tables

A table binds texts to entries in ascending order of the texts, compared by code points. The
order is part of the type, so a table is determined by what it binds, and a scan meets the lowest
key first.
-/

namespace DocStore

/-- Bindings in strictly ascending order of their keys. -/
structure Table (α : Type) where
  bindings : List (String × α)
  ascending : bindings.Pairwise fun left right => left.1 < right.1

namespace Table

variable {α : Type}

/-- The table that binds nothing. -/
def empty : Table α := ⟨[], .nil⟩

instance : Inhabited (Table α) := ⟨empty⟩

/-- The keys, ascending. -/
def keys (table : Table α) : List String := table.bindings.map (·.1)

/-- The entries in the order of their keys. -/
def values (table : Table α) : List α := table.bindings.map (·.2)

/-- The number of bindings. -/
def size (table : Table α) : Nat := table.bindings.length

/-- The entry under a key in a list of bindings. -/
def lookup : List (String × α) → String → Option α
  | [], _ => none
  | (current, entry) :: rest, key => if current = key then some entry else lookup rest key

/-- Binds a key in an ascending list: in place of its old binding, or where it belongs. -/
def place (key : String) (entry : α) : List (String × α) → List (String × α)
  | [] => [(key, entry)]
  | (current, old) :: rest =>
      if key < current then (key, entry) :: (current, old) :: rest
      else if key = current then (key, entry) :: rest
      else (current, old) :: place key entry rest

/-- Placing a binding brings in no key but its own. -/
theorem key_of_mem_place {key : String} {entry : α} {bindings : List (String × α)}
    {binding : String × α} (inside : binding ∈ place key entry bindings) :
    binding.1 = key ∨ binding ∈ bindings := by
  induction bindings with
  | nil => simp only [place, List.mem_singleton] at inside; exact .inl (by simp [inside])
  | cons head rest ih =>
      obtain ⟨current, old⟩ := head
      simp only [place] at inside
      split at inside
      · rcases List.mem_cons.1 inside with here | later
        · exact .inl (by simp [here])
        · exact .inr later
      · split at inside
        · rcases List.mem_cons.1 inside with here | later
          · exact .inl (by simp [here])
          · exact .inr (List.mem_cons_of_mem _ later)
        · rcases List.mem_cons.1 inside with here | later
          · exact .inr (by simp [here])
          · rcases ih later with own | present
            · exact .inl own
            · exact .inr (List.mem_cons_of_mem _ present)

/-- Placing a binding keeps the keys ascending. -/
theorem place_ascending (key : String) (entry : α) {bindings : List (String × α)}
    (ascending : bindings.Pairwise fun left right => left.1 < right.1) :
    (place key entry bindings).Pairwise fun left right => left.1 < right.1 := by
  induction bindings with
  | nil => simp [place]
  | cons head rest ih =>
      obtain ⟨current, old⟩ := head
      obtain ⟨above, later⟩ := List.pairwise_cons.1 ascending
      simp only [place]
      split
      · rename_i below
        refine List.pairwise_cons.2 ⟨fun binding inside => ?_, ascending⟩
        rcases List.mem_cons.1 inside with here | present
        · simpa [here] using below
        · exact String.lt_trans below (above binding present)
      · rename_i notBelow
        split
        · rename_i same
          subst same
          exact List.pairwise_cons.2 ⟨above, later⟩
        · rename_i different
          refine List.pairwise_cons.2 ⟨fun binding inside => ?_, ih later⟩
          rcases key_of_mem_place inside with own | present
          · rcases String.le_total key current with low | high
            · exact absurd (String.le_antisymm low (String.not_lt.1 notBelow)) different
            · rw [own]
              exact String.not_le.1 fun low => different (String.le_antisymm low high)
          · exact above binding present

/-- The entry under a key. -/
def find? (table : Table α) (key : String) : Option α := lookup table.bindings key

/-- True exactly when the key is bound. -/
def contains (table : Table α) (key : String) : Bool := (table.find? key).isSome

/-- Binds a key, in place of its old binding if it has one. -/
def put (table : Table α) (key : String) (entry : α) : Table α :=
  ⟨place key entry table.bindings, place_ascending key entry table.ascending⟩

/-- Removes the binding of a key; without one the table stays as it is. -/
def erase (table : Table α) (key : String) : Table α :=
  ⟨table.bindings.filter fun binding => binding.1 != key, table.ascending.filter _⟩

/-- Binds a vacant key and refuses a taken one. -/
def insertNew? (table : Table α) (key : String) (entry : α) : Option (Table α) :=
  if table.contains key then none else some (table.put key entry)

/-- Keeps the bindings whose entry passes a test. -/
def filter (table : Table α) (keep : α → Bool) : Table α :=
  ⟨table.bindings.filter fun binding => keep binding.2, table.ascending.filter _⟩

/-- The binding with the lowest key whose entry passes a test. -/
def first? (table : Table α) (test : α → Bool) : Option (String × α) :=
  table.bindings.find? fun binding => test binding.2

/-- The table that binds every key of a list to the last entry given for it. -/
def ofList (bindings : List (String × α)) : Table α :=
  bindings.foldl (fun table binding => table.put binding.1 binding.2) empty

/-- The first entry that passes a test, and `false`; or, when there is none, the new entry, bound
under its key, and `true`. -/
def findOrPut (table : Table α) (test : α → Bool) (key : String) (entry : α) :
    (α × Bool) × Table α :=
  match table.first? test with
  | some (_, found) => ((found, false), table)
  | none => ((entry, true), table.put key entry)

@[simp] theorem find?_empty (key : String) : (empty : Table α).find? key = none := rfl

theorem lookup_place (key other : String) (entry : α) (bindings : List (String × α)) :
    lookup (place key entry bindings) other =
      if key = other then some entry else lookup bindings other := by
  induction bindings with
  | nil => simp [place, lookup]
  | cons head rest ih =>
      obtain ⟨current, old⟩ := head
      simp only [place]
      split
      · simp [lookup]
      · split
        · rename_i same
          subst same
          by_cases asked : key = other <;> simp [lookup, asked]
        · rename_i different
          by_cases asked : current = other
          · subst asked
            simp [lookup, different]
          · simp [lookup, asked, ih]

/-- A bound key reads back as it was bound, and the others are as before. -/
theorem find?_put (table : Table α) (key other : String) (entry : α) :
    (table.put key entry).find? other = if key = other then some entry else table.find? other :=
  lookup_place key other entry table.bindings

theorem lookup_filter_ne (key other : String) (bindings : List (String × α)) :
    lookup (bindings.filter fun binding => binding.1 != key) other =
      if key = other then none else lookup bindings other := by
  induction bindings with
  | nil => simp [lookup]
  | cons head rest ih =>
      obtain ⟨current, old⟩ := head
      by_cases here : current = key
      · subst here
        by_cases asked : current = other
        · subst asked
          simpa using ih
        · simpa [lookup, asked] using ih
      · by_cases asked : current = other
        · subst asked
          simp [lookup, here, Ne.symm here]
        · simp [lookup, here, asked, ih]

/-- An erased key is unbound, and the others are as before. -/
theorem find?_erase (table : Table α) (key other : String) :
    (table.erase key).find? other = if key = other then none else table.find? other :=
  lookup_filter_ne key other table.bindings

/-- A key is bound exactly when it is among the keys. -/
theorem contains_iff (table : Table α) (key : String) :
    table.contains key = true ↔ key ∈ table.keys := by
  unfold contains find? keys
  induction table.bindings with
  | nil => simp [lookup]
  | cons head rest ih =>
      obtain ⟨current, entry⟩ := head
      by_cases here : current = key
      · simp [lookup, here]
      · simp [lookup, here, Ne.symm here, ih]

end Table

end DocStore
