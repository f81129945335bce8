import DocStore.Proofs.ShelfInvariants

/-!
# The effect of a mass update

A mass update changes its documents in the order of their keys, up to the first that cannot be
updated. Main statement: every document that it reaches becomes the result of the update of what it
was before, all others stay as they are, and the answer is the refusal of the first document that
refuses, if one does. The matches are determined beforehand and have different keys, so no document
is reached twice, and none is missed because of a change to another one.
-/

namespace DocStore.Shelf

/-- The bindings that an update of several documents changes: those before the first that cannot
be updated. -/
def reached (changes : Document) (scopes : List ArrayFilter)
    (bindings : List (String × Document)) : List (String × Document) :=
  bindings.takeWhile fun binding => (binding.2.update scopes changes).isOk

/-- A document that can be updated is reached, and so are those that are reached after it. -/
theorem reached_cons_ok {changes document result : Document} {scopes : List ArrayFilter}
    (updated : document.update scopes changes = .ok result) (key : String)
    (rest : List (String × Document)) :
    reached changes scopes ((key, document) :: rest) =
      (key, document) :: reached changes scopes rest := by
  simp [reached, updated, Except.isOk, Except.toBool]

/-- Changing the document of the lowest key leaves those under the keys to come. -/
theorem stored_put {shelf : Shelf} {first : String × Document}
    {rest : List (String × Document)}
    (ascending : (first :: rest).Pairwise fun left right => left.1 < right.1)
    (stored : ∀ binding ∈ first :: rest, shelf.find? binding.1 = some binding.2)
    (result : Document) :
    ∀ binding ∈ rest, (shelf.put first.1 result).find? binding.1 = some binding.2 := by
  intro binding inside
  have apart : first.1 ≠ binding.1 := fun same =>
    String.lt_irrefl first.1 (same ▸ (List.pairwise_cons.mp ascending).1 binding inside)
  rw [Table.find?_put, if_neg apart]
  exact stored binding (List.mem_cons_of_mem _ inside)

/-- Updating a stored document whose update fails ends the changes. -/
theorem updateEach_stops {shelf : Shelf} {changes : Document} {scopes : List ArrayFilter}
    {key : String} {keys : List String} {document : Document} {refusal : Refusal}
    (found : shelf.find? key = some document)
    (refused : document.update scopes changes = .error refusal) :
    updateEach changes scopes (key :: keys) shelf = (.error (.invalidParams refusal), shelf) := by
  simp [updateEach, updateAt, found, refused]

/-- Updating a stored document whose update succeeds puts the result in its place. -/
theorem updateEach_advances {shelf : Shelf} {changes : Document} {scopes : List ArrayFilter}
    {key : String} {keys : List String} {document result : Document}
    (found : shelf.find? key = some document)
    (updated : document.update scopes changes = .ok result) :
    updateEach changes scopes (key :: keys) shelf =
      updateEach changes scopes keys (shelf.put key result) := by
  simp [updateEach, updateAt, found, updated]

/-- A key with no document among those that are reached keeps what it binds. The induction follows
the keys. -/
theorem find?_updateEach_unreached {shelf : Shelf} {changes : Document}
    {scopes : List ArrayFilter} {bindings : List (String × Document)}
    (ascending : bindings.Pairwise fun left right => left.1 < right.1)
    (stored : ∀ binding ∈ bindings, shelf.find? binding.1 = some binding.2) {key : String}
    (unreached : ∀ binding ∈ reached changes scopes bindings, binding.1 ≠ key) :
    (updateEach changes scopes (bindings.map (·.1)) shelf).2.find? key = shelf.find? key := by
  induction bindings generalizing shelf with
  | nil => rfl
  | cons first rest ih =>
      obtain ⟨current, document⟩ := first
      have found : shelf.find? current = some document := stored _ List.mem_cons_self
      cases updated : document.update scopes changes with
      | error refusal => rw [List.map_cons, updateEach_stops found updated]
      | ok result =>
          rw [reached_cons_ok updated] at unreached
          have apart : current ≠ key := unreached _ List.mem_cons_self
          rw [List.map_cons, updateEach_advances found updated,
            ih (List.pairwise_cons.mp ascending).2 (stored_put ascending stored result)
              fun binding inside => unreached binding (List.mem_cons_of_mem _ inside),
            Table.find?_put, if_neg apart]

/-- Every document that is reached becomes the result of its update. The induction follows the
keys; a document that has been changed is not among those still to come. -/
theorem find?_updateEach_reached {shelf : Shelf} {changes : Document}
    {scopes : List ArrayFilter} {bindings : List (String × Document)}
    (ascending : bindings.Pairwise fun left right => left.1 < right.1)
    (stored : ∀ binding ∈ bindings, shelf.find? binding.1 = some binding.2) {key : String}
    {document : Document} (inside : (key, document) ∈ reached changes scopes bindings) :
    ∃ result, document.update scopes changes = .ok result ∧
      (updateEach changes scopes (bindings.map (·.1)) shelf).2.find? key = some result := by
  induction bindings generalizing shelf with
  | nil => cases inside
  | cons first rest ih =>
      obtain ⟨current, head⟩ := first
      obtain ⟨below, later⟩ := List.pairwise_cons.mp ascending
      have found : shelf.find? current = some head := stored _ List.mem_cons_self
      cases updated : head.update scopes changes with
      | error refusal => simp [reached, updated, Except.isOk, Except.toBool] at inside
      | ok result =>
          have laterStored := stored_put ascending stored result
          rw [reached_cons_ok updated] at inside
          rw [List.map_cons, updateEach_advances found updated]
          rcases List.mem_cons.mp inside with here | present
          · cases here
            refine ⟨result, updated, ?_⟩
            rw [find?_updateEach_unreached later laterStored, Table.find?_put, if_pos rfl]
            intro binding among same
            have listed : binding ∈ rest := (List.takeWhile_sublist _).subset among
            exact String.lt_irrefl key (same ▸ below binding listed)
          · exact ih later laterStored present

/-- The matches are the stored documents that a filter accepts. -/
theorem mem_matching_iff (shelf : Shelf) (filter : Filter) (key : String) (document : Document) :
    (key, document) ∈ (shelf.matching filter).bindings ↔
      shelf.find? key = some document ∧ document.matches filter = true := by
  rw [Table.mem_bindings_iff, matching, Table.find?_filter, Option.filter_eq_some_iff]

/-- A match that is listed with its key stands under it. -/
theorem stored_of_matching {shelf : Shelf} {filter : Filter} {binding : String × Document}
    (listed : binding ∈ (shelf.matching filter).bindings) :
    shelf.find? binding.1 = some binding.2 :=
  ((mem_matching_iff shelf filter binding.1 binding.2).mp listed).1

/-- A mass update changes the matches that it reaches into their updates. -/
theorem find?_updateMany_reached {shelf : Shelf} {filter : Filter} {changes : Document}
    {scopes : List ArrayFilter} {key : String} {document : Document}
    (inside : (key, document) ∈ reached changes scopes (shelf.matching filter).bindings) :
    ∃ result, document.update scopes changes = .ok result ∧
      (shelf.updateMany filter changes scopes).2.find? key = some result :=
  find?_updateEach_reached (shelf.matching filter).ascending
    (fun _ => stored_of_matching) inside

/-- A mass update changes nothing that it does not reach. -/
theorem find?_updateMany_unreached {shelf : Shelf} {filter : Filter} {changes : Document}
    {scopes : List ArrayFilter} {key : String}
    (unreached : ∀ binding ∈ reached changes scopes (shelf.matching filter).bindings,
      binding.1 ≠ key) :
    (shelf.updateMany filter changes scopes).2.find? key = shelf.find? key :=
  find?_updateEach_unreached (shelf.matching filter).ascending
    (fun _ => stored_of_matching) unreached

/-- A document that cannot be updated is not reached, and neither is any after it. -/
theorem reached_cons_error {changes document : Document} {refusal : Refusal}
    {scopes : List ArrayFilter} (refused : document.update scopes changes = .error refusal)
    (key : String) (rest : List (String × Document)) :
    reached changes scopes ((key, document) :: rest) = [] := by
  simp [reached, refused, Except.isOk, Except.toBool]

/-- The changes either reach all documents and succeed, or stop at one that cannot be updated, whose
refusal is the answer. The induction follows the keys. -/
theorem updateEach_outcome {shelf : Shelf} {changes : Document} {scopes : List ArrayFilter}
    {bindings : List (String × Document)}
    (ascending : bindings.Pairwise fun left right => left.1 < right.1)
    (stored : ∀ binding ∈ bindings, shelf.find? binding.1 = some binding.2) :
    (reached changes scopes bindings = bindings ∧
        (updateEach changes scopes (bindings.map (·.1)) shelf).1 = .ok ()) ∨
      ∃ key document rest refusal,
        bindings = reached changes scopes bindings ++ (key, document) :: rest ∧
        document.update scopes changes = .error refusal ∧
        (updateEach changes scopes (bindings.map (·.1)) shelf).1 =
          .error (.invalidParams refusal) := by
  induction bindings generalizing shelf with
  | nil => exact .inl ⟨rfl, rfl⟩
  | cons first rest ih =>
      obtain ⟨key, document⟩ := first
      have found : shelf.find? key = some document := stored _ List.mem_cons_self
      cases updated : document.update scopes changes with
      | error refusal =>
          refine .inr ⟨key, document, rest, refusal, ?_, updated, ?_⟩
          · rw [reached_cons_error updated, List.nil_append]
          · rw [List.map_cons, updateEach_stops found updated]
      | ok result =>
          rw [reached_cons_ok updated, List.map_cons, updateEach_advances found updated]
          rcases ih (List.pairwise_cons.mp ascending).2 (stored_put ascending stored result) with
            ⟨whole, answered⟩ | ⟨other, refusing, behind, refusal, split, refused, answered⟩
          · exact .inl ⟨by rw [whole], answered⟩
          · exact .inr ⟨other, refusing, behind, refusal, congrArg _ split, refused, answered⟩

/-- A mass update neither adds nor removes a key. -/
theorem keys_updateMany (shelf : Shelf) (filter : Filter) (changes : Document)
    (scopes : List ArrayFilter) :
    Table.keys (shelf.updateMany filter changes scopes).2 = shelf.keys := by
  apply Table.keys_eq_of_bound
  intro key
  by_cases inside : ∃ document,
      (key, document) ∈ reached changes scopes (shelf.matching filter).bindings
  · obtain ⟨document, among⟩ := inside
    obtain ⟨result, -, left⟩ := find?_updateMany_reached among
    have listed := (List.takeWhile_sublist _).subset among
    rw [left, stored_of_matching listed, Option.isSome_some, Option.isSome_some]
  · rw [find?_updateMany_unreached]
    rintro ⟨other, document⟩ among rfl
    exact inside ⟨document, among⟩

end DocStore.Shelf

namespace DocStore.Memory

/-- What a mass update answers and does, on every state of the store and for every filter.

The matches are those before the update, in the order of their keys. If every one of them can be
updated, the update succeeds, and each becomes the result of updating what it was. Otherwise there
is a first that refuses: its refusal is the answer, the matches before it are updated, and it and
those behind it are as before. Documents that do not match are never changed, nor are the keys,
their order or any other collection. -/
theorem mass_update_outcome [KeySource] (memory : Memory) (name : String) (filter : Filter)
    (changes : Document) (scopes : List ArrayFilter) :
    ∃ (matched : List (String × Document)) (answer : Except StoreError Unit) (after : Memory),
      matched.Pairwise (fun left right => left.1 < right.1) ∧
      (∀ key document, (key, document) ∈ matched ↔
        (memory.shelf name).find? key = some document ∧ document.matches filter = true) ∧
      backend.updateMany name filter changes scopes memory = (answer, after) ∧
      ((answer = .ok () ∧
          ∀ binding ∈ matched, ∃ result, binding.2.update scopes changes = .ok result ∧
            (after.shelf name).find? binding.1 = some result) ∨
        ∃ updated key document rest refusal, matched = updated ++ (key, document) :: rest ∧
          document.update scopes changes = .error refusal ∧
          answer = .error (.invalidParams refusal) ∧
          (∀ binding ∈ updated, ∃ result, binding.2.update scopes changes = .ok result ∧
            (after.shelf name).find? binding.1 = some result) ∧
          ∀ binding ∈ (key, document) :: rest,
            (after.shelf name).find? binding.1 = some binding.2) ∧
      (∀ key document, (memory.shelf name).find? key = some document →
        document.matches filter = false → (after.shelf name).find? key = some document) ∧
      (after.shelf name).keys = (memory.shelf name).keys ∧
      ∀ other, name ≠ other → after.shelf other = memory.shelf other := by
  have left : (memory.withShelf name ((memory.shelf name).updateMany filter changes scopes).2).shelf
      name = ((memory.shelf name).updateMany filter changes scopes).2 := by
    rw [shelf_withShelf, if_pos rfl]
  have ascending := ((memory.shelf name).matching filter).ascending
  refine ⟨((memory.shelf name).matching filter).bindings,
    ((memory.shelf name).updateMany filter changes scopes).1,
    memory.withShelf name ((memory.shelf name).updateMany filter changes scopes).2, ascending,
    Shelf.mem_matching_iff _ filter, rfl, ?_, ?_, ?_, ?_⟩
  · rw [left]
    rcases Shelf.updateEach_outcome ascending (fun _ => Shelf.stored_of_matching) with
      ⟨whole, answered⟩ | ⟨key, document, rest, refusal, split, refused, answered⟩
    · refine .inl ⟨answered, fun binding inside => ?_⟩
      rw [← whole] at inside
      exact Shelf.find?_updateMany_reached inside
    · refine .inr ⟨_, key, document, rest, refusal, split, refused, answered,
        fun binding inside => Shelf.find?_updateMany_reached inside, ?_⟩
      intro binding behind
      have listed : binding ∈ ((memory.shelf name).matching filter).bindings := by
        rw [split]
        exact List.mem_append_right _ behind
      rw [Shelf.find?_updateMany_unreached, Shelf.stored_of_matching listed]
      intro changed among same
      rw [split] at ascending
      have below := (List.pairwise_append.mp ascending).2.2 changed among binding behind
      exact String.lt_irrefl binding.1 (same ▸ below)
  · intro key document stored mismatched
    rw [left, Shelf.find?_updateMany_unreached, stored]
    rintro ⟨other, changed⟩ among rfl
    have listed := (List.takeWhile_sublist _).subset among
    obtain ⟨found, accepted⟩ := (Shelf.mem_matching_iff _ _ _ _).mp listed
    cases stored.symm.trans found
    rw [mismatched] at accepted
    cases accepted
  · rw [left]
    exact Shelf.keys_updateMany _ filter changes scopes
  · intro other apart
    rw [shelf_withShelf, if_neg apart]

end DocStore.Memory
