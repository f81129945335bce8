import DocStore.Table

/-!
# Laws of ordered tables

A table is determined by what it binds. Ascending keys leave one way to list the bindings, so two
tables that read alike under every key are equal. Every operation is described by what it does to
the reading of one key; equalities between tables then follow without a look at their lists. So do
properties of every entry and its key, which the operations keep.

Rewriting the entries of a table keeps its keys. It commutes with every operation, as long as
tests are asked of the rewritten entries.
-/

namespace DocStore.Table

variable {α β : Type}

/-- A binding is listed exactly when its key reads back its entry. The head of the list has the
lowest key, so no later binding can repeat it. -/
theorem mem_bindings_iff (table : Table α) (key : String) (entry : α) :
    (key, entry) ∈ table.bindings ↔ table.find? key = some entry := by
  obtain ⟨bindings, ascending⟩ := table
  simp only [find?]
  induction bindings with
  | nil => simp [lookup]
  | cons head rest ih =>
      obtain ⟨current, first⟩ := head
      obtain ⟨above, later⟩ := List.pairwise_cons.mp ascending
      by_cases here : current = key
      · subst here
        have absent : (current, entry) ∉ rest := by
          intro present
          exact String.lt_irrefl current (above _ present)
        simp [lookup, absent, eq_comm]
      · have notHead : (key, entry) ≠ (current, first) := by
          intro same
          exact here (congrArg Prod.fst same).symm
        rw [List.mem_cons, lookup, if_neg here, ih later]
        simp [notHead]

/-- An entry is listed exactly when it is bound. -/
theorem mem_values_iff (table : Table α) (entry : α) :
    entry ∈ table.values ↔ ∃ key, table.find? key = some entry := by
  simp only [values, List.mem_map, ← mem_bindings_iff]
  constructor
  · rintro ⟨⟨key, _⟩, listed, rfl⟩
    exact ⟨key, listed⟩
  · rintro ⟨key, listed⟩
    exact ⟨(key, entry), listed, rfl⟩

/-- Listed bindings of one key are the same. -/
theorem eq_of_key_eq {table : Table α} {left right : String × α}
    (leftListed : left ∈ table.bindings) (rightListed : right ∈ table.bindings)
    (same : left.1 = right.1) : left = right := by
  have leftFound := (mem_bindings_iff table left.1 left.2).mp leftListed
  have rightFound := (mem_bindings_iff table right.1 right.2).mp rightListed
  rw [same, rightFound] at leftFound
  exact Prod.ext same (Option.some.inj leftFound).symm

/-- No binding is listed twice. -/
theorem nodup_bindings (table : Table α) : table.bindings.Nodup := by
  apply table.ascending.imp
  intro left right below same
  exact String.lt_irrefl right.1 (same ▸ below)

/-- The keys are listed in strictly ascending order. -/
theorem ascending_keys (table : Table α) : table.keys.Pairwise (· < ·) :=
  List.pairwise_map.mpr table.ascending

/-- Tables that read alike under every key are equal. Their lists have the same members, and the
order of the keys puts the members in the same places. -/
theorem eq_of_find? {left right : Table α} (alike : ∀ key, left.find? key = right.find? key) :
    left = right := by
  have members : ∀ binding, binding ∈ left.bindings ↔ binding ∈ right.bindings := by
    rintro ⟨key, entry⟩
    rw [mem_bindings_iff, mem_bindings_iff, alike]
  have rearranged : left.bindings.Perm right.bindings :=
    (List.perm_ext_iff_of_nodup left.nodup_bindings right.nodup_bindings).mpr members
  have same : left.bindings = right.bindings := by
    refine rearranged.eq_of_pairwise ?_ left.ascending right.ascending
    intro first second _ _ below above
    exact absurd (String.lt_trans below above) (String.lt_irrefl _)
  obtain ⟨bindings, ascending⟩ := left
  obtain ⟨others, alsoAscending⟩ := right
  cases same
  rfl

/-- Tables that bind the same keys list them alike. -/
theorem keys_eq_of_bound {left : Table α} {right : Table β}
    (alike : ∀ key, (left.find? key).isSome = (right.find? key).isSome) :
    left.keys = right.keys := by
  have members : ∀ key, key ∈ left.keys ↔ key ∈ right.keys := by
    intro key
    rw [← contains_iff, ← contains_iff, contains, contains, alike]
  have leftDistinct : left.keys.Nodup := left.ascending_keys.imp String.ne_of_lt
  have rightDistinct : right.keys.Nodup := right.ascending_keys.imp String.ne_of_lt
  have rearranged := (List.perm_ext_iff_of_nodup leftDistinct rightDistinct).mpr members
  refine rearranged.eq_of_pairwise ?_ left.ascending_keys right.ascending_keys
  intro first second _ _ below above
  exact absurd (String.lt_trans below above) (String.lt_irrefl _)

/-- A kept entry reads back when it passes the test, and the others are gone. -/
theorem find?_filter (table : Table α) (keep : α → Bool) (key : String) :
    (table.filter keep).find? key = (table.find? key).filter keep := by
  apply Option.ext
  intro entry
  rw [← mem_bindings_iff, Option.filter_eq_some_iff, ← mem_bindings_iff]
  simp [filter]

/-- Binding a key forgets whether it was erased before. -/
theorem put_erase (table : Table α) (key : String) (entry : α) :
    (table.erase key).put key entry = table.put key entry := by
  apply eq_of_find?
  intro other
  simp only [find?_put, find?_erase]
  split <;> rfl

/-- What was taken out can be put back. -/
theorem put_erase_eq_self {table : Table α} {key : String} {entry : α}
    (bound : table.find? key = some entry) : (table.erase key).put key entry = table := by
  rw [put_erase]
  apply eq_of_find?
  intro other
  rw [find?_put]
  split
  · rename_i same
    rw [← same, bound]
  · rfl

/-- Erasing an unbound key changes nothing. -/
theorem erase_eq_self {table : Table α} {key : String} (unbound : table.find? key = none) :
    table.erase key = table := by
  apply eq_of_find?
  intro other
  rw [find?_erase]
  split
  · rename_i same
    rw [← same, unbound]
  · rfl

/-- A vacant key is bound, and a taken one refused. -/
theorem insertNew?_eq_some_iff (table grown : Table α) (key : String) (entry : α) :
    table.insertNew? key entry = some grown ↔
      table.find? key = none ∧ grown = table.put key entry := by
  unfold insertNew? contains
  cases table.find? key <;> simp [eq_comm]

/-- The first binding that passes a test is a binding of the table, and it passes. -/
theorem find?_of_first? {table : Table α} {test : α → Bool} {key : String} {entry : α}
    (found : table.first? test = some (key, entry)) :
    table.find? key = some entry ∧ test entry = true := by
  have listed : table.bindings.find? (fun binding => test binding.2) = some (key, entry) := found
  constructor
  · rw [← mem_bindings_iff]
    exact List.mem_of_find?_eq_some listed
  · simpa using List.find?_some listed

/-- No entry that passes a test stands under a lower key than the first one. -/
theorem key_le_of_first? {table : Table α} {test : α → Bool} {key other : String} {entry bound : α}
    (found : table.first? test = some (key, entry)) (stored : table.find? other = some bound)
    (passes : test bound = true) : key ≤ other := by
  obtain ⟨-, earlier, later, split, failing⟩ := List.find?_eq_some_iff_append.mp found
  have ascending := table.ascending
  have listed := (table.mem_bindings_iff other bound).mpr stored
  rw [split] at ascending listed
  rcases List.mem_append.mp listed with before | after
  · have fails := failing _ before
    simp [passes] at fails
  · rcases List.mem_cons.mp after with here | behind
    · cases here
      exact String.le_refl key
    · have above := (List.pairwise_cons.mp (List.pairwise_append.mp ascending).2.1).1 _ behind
      exact Std.le_of_lt above

/-- The first binding that passes a test is the one with the lowest key among those that do. -/
theorem first?_eq_some_iff (table : Table α) (test : α → Bool) (key : String) (entry : α) :
    table.first? test = some (key, entry) ↔
      table.find? key = some entry ∧ test entry = true ∧
        ∀ other bound, table.find? other = some bound → test bound = true → key ≤ other := by
  constructor
  · intro found
    obtain ⟨stored, passes⟩ := find?_of_first? found
    exact ⟨stored, passes, fun other bound => key_le_of_first? found⟩
  · rintro ⟨stored, passes, least⟩
    cases found : table.first? test with
    | none =>
        have failing := List.find?_eq_none.mp found (key, entry)
          ((table.mem_bindings_iff key entry).mpr stored)
        exact absurd passes failing
    | some binding =>
        obtain ⟨other, bound⟩ := binding
        obtain ⟨otherStored, otherPasses⟩ := find?_of_first? found
        have same : other = key := String.le_antisymm (key_le_of_first? found stored passes)
          (least other bound otherStored otherPasses)
        subst same
        rw [stored] at otherStored
        cases otherStored
        rfl

/-- There is no first binding that passes a test exactly when no entry passes it. -/
theorem first?_eq_none_iff (table : Table α) (test : α → Bool) :
    table.first? test = none ↔ ∀ key entry, table.find? key = some entry → test entry = false := by
  rw [first?, List.find?_eq_none]
  simp only [Prod.forall, table.mem_bindings_iff, Bool.not_eq_true]

/-- A test that only the entry of one key passes finds that key. -/
theorem first?_eq_of_unique {table : Table α} {test : α → Bool} {key : String}
    (exact : ∀ other entry, table.find? other = some entry → (test entry = true ↔ other = key)) :
    table.first? test = (table.find? key).map fun entry => (key, entry) := by
  cases bound : table.find? key with
  | none =>
      apply (first?_eq_none_iff table test).mpr
      intro other entry stored
      refine Bool.eq_false_iff.mpr fun passes => ?_
      rw [(exact other entry stored).mp passes, bound] at stored
      cases stored
  | some entry =>
      apply (first?_eq_some_iff table test key entry).mpr
      refine ⟨bound, (exact key entry bound).mpr rfl, ?_⟩
      intro other found stored passes
      exact Std.le_of_eq ((exact other found stored).mp passes).symm

/-- A property of every entry and its key. -/
def Each (holds : String → α → Prop) (table : Table α) : Prop :=
  ∀ key entry, table.find? key = some entry → holds key entry

section Each

variable {holds : String → α → Prop} {table : Table α}

/-- Nothing is bound in the empty table. -/
theorem each_empty : Each holds (empty : Table α) := by
  intro key entry found
  cases found

/-- An entry may be put where it satisfies the property. -/
theorem Each.put (each : Each holds table) {key : String} {entry : α} (own : holds key entry) :
    Each holds (table.put key entry) := by
  intro other bound found
  rw [find?_put] at found
  split at found
  · rename_i same
    cases found
    exact same ▸ own
  · exact each other bound found

/-- Erasing keeps the other entries as they are. -/
theorem Each.erase (each : Each holds table) (key : String) : Each holds (table.erase key) := by
  intro other bound found
  rw [find?_erase] at found
  split at found
  · cases found
  · exact each other bound found

/-- A part of a table satisfies what the whole does. -/
theorem Each.filter (each : Each holds table) (keep : α → Bool) :
    Each holds (table.filter keep) := by
  intro key bound found
  rw [find?_filter, Option.filter_eq_some_iff] at found
  exact each key bound found.1

end Each

/-- The same keys over rewritten entries. -/
def mapEntries (table : Table α) (rewrite : α → β) : Table β :=
  ⟨table.bindings.map fun binding => (binding.1, rewrite binding.2),
    List.pairwise_map.mpr table.ascending⟩

/-- Each key reads back its rewritten entry. -/
theorem find?_mapEntries (table : Table α) (rewrite : α → β) (key : String) :
    (table.mapEntries rewrite).find? key = (table.find? key).map rewrite := by
  obtain ⟨bindings, ascending⟩ := table
  simp only [mapEntries, find?]
  clear ascending
  induction bindings with
  | nil => rfl
  | cons head rest ih =>
      obtain ⟨current, entry⟩ := head
      by_cases here : current = key
      · simp [lookup, here]
      · simp [lookup, here, ih]

/-- Rewritten entries stand in the order of the table. -/
theorem values_mapEntries (table : Table α) (rewrite : α → β) :
    (table.mapEntries rewrite).values = table.values.map rewrite := by
  simp [values, mapEntries]

/-- Binding a rewritten entry rewrites the binding. -/
theorem mapEntries_put (table : Table α) (rewrite : α → β) (key : String) (entry : α) :
    (table.put key entry).mapEntries rewrite =
      (table.mapEntries rewrite).put key (rewrite entry) := by
  apply eq_of_find?
  intro other
  simp only [find?_mapEntries, find?_put]
  split <;> rfl

/-- Erasing a key erases its rewritten entry. -/
theorem mapEntries_erase (table : Table α) (rewrite : α → β) (key : String) :
    (table.erase key).mapEntries rewrite = (table.mapEntries rewrite).erase key := by
  apply eq_of_find?
  intro other
  simp only [find?_mapEntries, find?_erase]
  split <;> rfl

/-- Rewritten entries are kept by a test exactly when the original entries pass it rewritten. -/
theorem filter_mapEntries (table : Table α) (rewrite : α → β) (keep : β → Bool) :
    (table.mapEntries rewrite).filter keep =
      (table.filter fun entry => keep (rewrite entry)).mapEntries rewrite := by
  simp only [filter, mapEntries, List.filter_map, Function.comp_def]

/-- The first rewritten entry that passes a test is the rewritten first entry that passes it
rewritten. -/
theorem first?_mapEntries (table : Table α) (rewrite : α → β) (test : β → Bool) :
    (table.mapEntries rewrite).first? test =
      (table.first? fun entry => test (rewrite entry)).map
        fun binding => (binding.1, rewrite binding.2) := by
  simp only [first?, mapEntries, List.find?_map, Function.comp_def]

end DocStore.Table
