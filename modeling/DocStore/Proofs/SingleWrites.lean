import DocStore.Proofs.Convention

/-!
# Writes to a single document

A replacement takes the first match out before it adds the document that replaces it, and puts it
back when the key of that document is taken. An update edits a copy, one path after the other, and
exchanges the stored document for the copy when all paths could be assigned. Main statement: a write
to a single document that fails leaves every collection as it was, and one that succeeds replaces,
updates or adds one document of one collection, or finds nothing to do.

A replacement fails only for a clash: its identifier is the key of a document that stays. The
document that is replaced is the match with the lowest key. It does not stay, so a replacement under
its key is no clash.
-/

namespace DocStore

namespace Shelf

/-- The document is a match, and no match stands under a lower key. -/
def FirstMatch (shelf : Shelf) (filter : Filter) (key : String) (document : Document) : Prop :=
  shelf.find? key = some document ∧ document.matches filter = true ∧
    ∀ other stored, shelf.find? other = some stored → stored.matches filter = true → key ≤ other

/-- No document is a match. -/
def Unmatched (shelf : Shelf) (filter : Filter) : Prop :=
  ∀ key document, shelf.find? key = some document → document.matches filter = false

/-- The shelf has grown by a document. Its key was vacant, and it is the identifier if that is a
string. -/
def Adds (shelf : Shelf) (document : Document) (grown : Shelf) : Prop :=
  ∃ key, shelf.find? key = none ∧
    (∀ identifier, document.IdentifiedBy identifier → key = identifier) ∧
    grown = shelf.put key document

/-- The identifier of a document is the key of a stored one. -/
def Clashes (shelf : Shelf) (document : Document) (identifier : String) : Prop :=
  document.IdentifiedBy identifier ∧ shelf.find? identifier ≠ none

/-- The identifier of a replacement is the key of a document that stays. -/
def ReplacementClashes (shelf : Shelf) (filter : Filter) (replacement : Document) (upsert : Bool)
    (identifier : String) : Prop :=
  shelf.Clashes replacement identifier ∧
    ((∃ key document, shelf.FirstMatch filter key document ∧ key ≠ identifier) ∨
      shelf.Unmatched filter ∧ upsert = true)

/-- What a replacement comes to when it succeeds: the first match gives way to the replacement.
Without a match the replacement is added if that is asked, and else nothing changes. -/
def Replaced (shelf : Shelf) (filter : Filter) (replacement : Document) (upsert : Bool)
    (changed : Shelf) : Prop :=
  (∃ key document, shelf.FirstMatch filter key document ∧
      Adds (shelf.erase key) replacement changed) ∨
    (shelf.Unmatched filter ∧ upsert = true ∧ shelf.Adds replacement changed) ∨
    (shelf.Unmatched filter ∧ upsert = false ∧ changed = shelf)

/-- Why an update of a single document fails: a path of it cannot be assigned, or the document that
it adds for want of a match clashes. -/
def UpdateFails (shelf : Shelf) (filter : Filter) (changes : Document) (upsert : Bool)
    (error : StoreError) : Prop :=
  (∃ key document refusal, shelf.FirstMatch filter key document ∧
      document.update [] changes = .error refusal ∧ error = .invalidParams refusal) ∨
    (shelf.Unmatched filter ∧ upsert = true ∧
      ((∃ refusal, Document.update [] filter.equalityFields changes = .error refusal ∧
          error = .invalidParams refusal) ∨
        ∃ added identifier, Document.update [] filter.equalityFields changes = .ok added ∧
          shelf.Clashes added identifier ∧ error = .duplicate (.document identifier)))

/-- What an update of a single document comes to when it succeeds: the first match is updated under
its key. Without a match the updated fields of the filter are added if that is asked, and else
nothing changes. -/
def Updated (shelf : Shelf) (filter : Filter) (changes : Document) (upsert : Bool)
    (changed : Shelf) : Prop :=
  (∃ key document result, shelf.FirstMatch filter key document ∧
      document.update [] changes = .ok result ∧ changed = shelf.put key result) ∨
    (shelf.Unmatched filter ∧ upsert = true ∧
      ∃ added, Document.update [] filter.equalityFields changes = .ok added ∧
        shelf.Adds added changed) ∨
    (shelf.Unmatched filter ∧ upsert = false ∧ changed = shelf)

/-- A replacement step by step: the first match is taken out, the replacement is added, and if it
cannot be added, the match is put back. -/
def replaceInSteps [KeySource] (shelf : Shelf) (filter : Filter) (replacement : Document)
    (upsert : Bool) : Except StoreError Unit × Shelf :=
  match shelf.firstMatch? filter with
  | some (key, previous) =>
      let rest : Shelf := shelf.erase key
      match rest.insert replacement with
      | .ok grown => (.ok (), grown)
      | .error error => (.error error, rest.put key previous)
  | none =>
      if upsert then
        match shelf.insert replacement with
        | .ok grown => (.ok (), grown)
        | .error error => (.error error, shelf)
      else (.ok (), shelf)

/-- The search for a match finds the first one. -/
theorem firstMatch?_eq_some_iff (shelf : Shelf) (filter : Filter) (key : String)
    (document : Document) :
    shelf.firstMatch? filter = some (key, document) ↔ shelf.FirstMatch filter key document :=
  Table.first?_eq_some_iff _ _ _ _

/-- The search for a match finds none exactly when there is none. -/
theorem firstMatch?_eq_none_iff (shelf : Shelf) (filter : Filter) :
    shelf.firstMatch? filter = none ↔ shelf.Unmatched filter :=
  Table.first?_eq_none_iff _ _

/-- Updating a stored document is updating it under its key. -/
theorem updateAt_of_stored {shelf : Shelf} {key : String} {document : Document}
    (stored : shelf.find? key = some document) (changes : Document) (scopes : List ArrayFilter) :
    shelf.updateAt changes scopes key =
      match document.update scopes changes with
      | .ok changed => .ok (shelf.put key changed)
      | .error refusal => .error (.invalidParams refusal) := by
  cases updated : document.update scopes changes with
  | ok result => simp only [updateAt, stored, updated]
  | error refusal => simp only [updateAt, stored, updated]

variable [KeySource]

/-- A key that is made up is vacant, so a key that is taken is the identifier. -/
theorem identifiedBy_keyFor {shelf : Shelf} {document : Document}
    (taken : shelf.find? (shelf.keyFor document) ≠ none) :
    document.IdentifiedBy (shelf.keyFor document) := by
  unfold keyFor at taken ⊢
  split
  · assumption
  · rename_i unidentified
    have bound : KeySource.key shelf document ∈ shelf.keys := by
      rw [← Table.contains_iff, Table.contains, Option.isSome_iff_ne_none]
      simpa [unidentified] using taken
    exact absurd bound (KeySource.fresh shelf document)

/-- A document cannot be added exactly when its identifier is a taken key. -/
theorem insert_eq_error_iff (shelf : Shelf) (document : Document) (error : StoreError) :
    shelf.insert document = .error error ↔
      ∃ identifier, error = .duplicate (.document identifier) ∧
        shelf.Clashes document identifier := by
  have refused : shelf.insert document = .error error ↔
      shelf.find? (shelf.keyFor document) ≠ none ∧
        error = .duplicate (.document (shelf.keyFor document)) := by
    cases found : shelf.find? (shelf.keyFor document) <;>
      simp [insert, Table.insertNew?, Table.contains, found, eq_comm]
  rw [refused]
  constructor
  · rintro ⟨taken, rfl⟩
    exact ⟨_, rfl, identifiedBy_keyFor taken, taken⟩
  · rintro ⟨identifier, rfl, carried, taken⟩
    rw [keyFor_eq carried]
    exact ⟨taken, rfl⟩

/-- A document that can be added makes the shelf grow by it. -/
theorem adds_of_insert {shelf grown : Shelf} {document : Document}
    (success : shelf.insert document = .ok grown) : shelf.Adds document grown := by
  obtain ⟨vacant, rfl⟩ := (insert_eq_ok_iff shelf grown document).mp success
  exact ⟨_, vacant, fun identifier carried => keyFor_eq carried shelf, rfl⟩

/-- The steps of a replacement come to what the replacement does, and when it fails, to the shelf
as it was. -/
theorem replaceInSteps_eq (shelf : Shelf) (filter : Filter) (replacement : Document)
    (upsert : Bool) :
    shelf.replaceInSteps filter replacement upsert =
      shelf.write (.replaceOne filter replacement upsert) := by
  simp only [replaceInSteps, write, replaceOne]
  cases found : shelf.firstMatch? filter with
  | none =>
      cases upsert with
      | true => rfl
      | false => rfl
  | some binding =>
      obtain ⟨key, previous⟩ := binding
      have stored := ((firstMatch?_eq_some_iff _ _ _ _).mp found).1
      cases added : insert (shelf.erase key) replacement with
      | ok grown => simp only [added]
      | error error => simp only [added, Table.put_erase_eq_self stored]

/-- A replacement fails only for a clash with a document that stays. -/
theorem replaceOne_eq_error_iff (shelf : Shelf) (filter : Filter) (replacement : Document)
    (upsert : Bool) (error : StoreError) :
    shelf.replaceOne filter replacement upsert = .error error ↔
      ∃ identifier, error = .duplicate (.document identifier) ∧
        shelf.ReplacementClashes filter replacement upsert identifier := by
  simp only [ReplacementClashes, ← firstMatch?_eq_some_iff, ← firstMatch?_eq_none_iff, replaceOne]
  cases found : shelf.firstMatch? filter with
  | none =>
      cases upsert with
      | true => simp [insert_eq_error_iff]
      | false => simp
  | some binding =>
      obtain ⟨key, previous⟩ := binding
      have apart : ∀ identifier, Clashes (shelf.erase key) replacement identifier ↔
          shelf.Clashes replacement identifier ∧ key ≠ identifier := by
        intro identifier
        simp only [Clashes, Table.find?_erase]
        by_cases own : key = identifier <;> simp [own]
      simp only [insert_eq_error_iff, apart]
      simp

/-- A replacement that succeeds exchanges the first match, adds the replacement or does nothing. -/
theorem replaced_of_replaceOne {shelf changed : Shelf} {filter : Filter} {replacement : Document}
    {upsert : Bool} (success : shelf.replaceOne filter replacement upsert = .ok changed) :
    shelf.Replaced filter replacement upsert changed := by
  simp only [Replaced, ← firstMatch?_eq_some_iff, ← firstMatch?_eq_none_iff]
  simp only [replaceOne] at success
  cases found : shelf.firstMatch? filter with
  | none =>
      right
      simp only [found] at success
      cases upsert with
      | true => exact .inl ⟨rfl, rfl, adds_of_insert success⟩
      | false =>
          cases success
          exact .inr ⟨rfl, rfl, rfl⟩
  | some binding =>
      obtain ⟨key, previous⟩ := binding
      simp only [found] at success
      exact .inl ⟨key, previous, rfl, adds_of_insert success⟩

/-- An update fails for a path that cannot be assigned, or for a clash of what it adds. -/
theorem updateOne_eq_error_iff (shelf : Shelf) (filter : Filter) (changes : Document)
    (upsert : Bool) (error : StoreError) :
    shelf.updateOne filter changes upsert = .error error ↔
      shelf.UpdateFails filter changes upsert error := by
  simp only [UpdateFails, ← firstMatch?_eq_some_iff, ← firstMatch?_eq_none_iff]
  cases found : shelf.firstMatch? filter with
  | none =>
      simp only [updateOne, found]
      cases upsert with
      | false => simp
      | true =>
          cases updated : Document.update [] filter.equalityFields changes with
          | error refusal => simp [eq_comm]
          | ok added => simp [insert_eq_error_iff, and_comm]
  | some binding =>
      obtain ⟨key, document⟩ := binding
      have stored := ((firstMatch?_eq_some_iff _ _ _ _).mp found).1
      simp only [updateOne, found, updateAt_of_stored stored]
      constructor
      · intro failed
        cases updated : document.update [] changes with
        | error refusal =>
            simp only [updated] at failed
            cases failed
            exact .inl ⟨key, document, refusal, rfl, updated, rfl⟩
        | ok result =>
            simp only [updated] at failed
            cases failed
      · rintro (⟨_, _, refusal, same, refused, rfl⟩ | ⟨missing, -⟩)
        · cases same
          simp only [refused]
        · cases missing

/-- An update that succeeds changes the first match, adds a document or does nothing. -/
theorem updated_of_updateOne {shelf changed : Shelf} {filter : Filter} {changes : Document}
    {upsert : Bool} (success : shelf.updateOne filter changes upsert = .ok changed) :
    shelf.Updated filter changes upsert changed := by
  simp only [Updated, ← firstMatch?_eq_some_iff, ← firstMatch?_eq_none_iff]
  cases found : shelf.firstMatch? filter with
  | none =>
      right
      simp only [updateOne, found] at success
      cases upsert with
      | false =>
          cases success
          exact .inr ⟨rfl, rfl, rfl⟩
      | true =>
          cases updated : Document.update [] filter.equalityFields changes with
          | error refusal =>
              simp only [updated] at success
              cases success
          | ok added =>
              simp only [updated] at success
              exact .inl ⟨rfl, rfl, added, rfl, adds_of_insert success⟩
  | some binding =>
      obtain ⟨key, document⟩ := binding
      have stored := ((firstMatch?_eq_some_iff _ _ _ _).mp found).1
      simp only [updateOne, found, updateAt_of_stored stored] at success
      cases updated : document.update [] changes with
      | error refusal =>
          simp only [updated] at success
          cases success
      | ok result =>
          simp only [updated] at success
          cases success
          exact .inl ⟨key, document, result, rfl, updated, rfl⟩

end Shelf

namespace Memory

/-- A change of one collection answers as its edit does. It leaves every collection when it fails,
and every other one when it succeeds. -/
theorem change_cases (name : String) (edit : Shelf → Except StoreError Shelf) (memory : Memory) :
    ∃ (answer : Except StoreError Unit) (after : Memory),
      change name edit memory = (answer, after) ∧
      (∀ error, answer = .error error ↔ edit (memory.shelf name) = .error error) ∧
      (∀ error, answer = .error error → after.shelf = memory.shelf) ∧
      (answer = .ok () → edit (memory.shelf name) = .ok (after.shelf name) ∧
        ∀ other, name ≠ other → after.shelf other = memory.shelf other) := by
  cases edited : edit (memory.shelf name) with
  | error error =>
      have left : change name edit memory = (.error error, memory) := by
        simp only [change, edited]
      exact ⟨.error error, memory, left, by simp, by simp, by simp⟩
  | ok changed =>
      have exchanged : change name edit memory = (.ok (), memory.withShelf name changed) := by
        simp only [change, edited]
      refine ⟨.ok (), memory.withShelf name changed, exchanged, by simp, by simp, ?_⟩
      rintro -
      constructor
      · rw [shelf_withShelf, if_pos rfl]
      · intro other apart
        rw [shelf_withShelf, if_neg apart]

/-- A change that succeeds edits its collection and leaves the others. -/
theorem edited_of_change {name : String} {edit : Shelf → Except StoreError Shelf}
    {memory after : Memory} (success : change name edit memory = (.ok (), after)) :
    edit (memory.shelf name) = .ok (after.shelf name) ∧
      ∀ other, name ≠ other → after.shelf other = memory.shelf other := by
  obtain ⟨answer, next, done, -, -, edited⟩ := change_cases name edit memory
  rw [done] at success
  cases success
  exact edited rfl

/-- A write to a single document changes that document or nothing, for every state of the store.

A replacement fails exactly when its identifier is the key of a document that stays, and the clash
tells that key. An update fails exactly when a path of it cannot be assigned, or when it adds a
document that clashes. After a failure every collection is as it was, although a replacement takes
the first match out before it can fail. After a success the collection differs by the one document
that was replaced, updated or added, if any, and the other collections do not differ at all. -/
theorem failed_writes_leave_no_trace [KeySource] (memory : Memory) (name : String) (filter : Filter)
    (upsert : Bool) :
    (∀ replacement, ∃ (answer : Except StoreError Unit) (after : Memory),
      backend.replaceOne name filter replacement upsert memory = (answer, after) ∧
      (memory.shelf name).replaceInSteps filter replacement upsert = (answer, after.shelf name) ∧
      (∀ error, answer = .error error ↔
        ∃ identifier, error = .duplicate (.document identifier) ∧
          (memory.shelf name).ReplacementClashes filter replacement upsert identifier) ∧
      (∀ error, answer = .error error → after.shelf = memory.shelf) ∧
      (answer = .ok () →
        (memory.shelf name).Replaced filter replacement upsert (after.shelf name) ∧
        ∀ other, name ≠ other → after.shelf other = memory.shelf other)) ∧
    ∀ changes, ∃ (answer : Except StoreError Unit) (after : Memory),
      backend.updateOne name filter changes upsert memory = (answer, after) ∧
      (∀ error, answer = .error error ↔
        (memory.shelf name).UpdateFails filter changes upsert error) ∧
      (∀ error, answer = .error error → after.shelf = memory.shelf) ∧
      (answer = .ok () →
        (memory.shelf name).Updated filter changes upsert (after.shelf name) ∧
        ∀ other, name ≠ other → after.shelf other = memory.shelf other) := by
  constructor
  · intro replacement
    obtain ⟨answer, after, written, failed, kept, changed⟩ := change_cases name
      (fun shelf => shelf.replaceOne filter replacement upsert) memory
    refine ⟨answer, after, written, ?_, ?_, kept, ?_⟩
    · rw [Shelf.replaceInSteps_eq, Shelf.write]
      cases answer with
      | error error => simp only [(failed error).mp rfl, kept error rfl]
      | ok _ => simp only [(changed rfl).1]
    · intro error
      rw [failed, Shelf.replaceOne_eq_error_iff]
    · intro succeeded
      obtain ⟨success, others⟩ := changed succeeded
      exact ⟨Shelf.replaced_of_replaceOne success, others⟩
  · intro changes
    obtain ⟨answer, after, written, failed, kept, changed⟩ := change_cases name
      (fun shelf => shelf.updateOne filter changes upsert) memory
    refine ⟨answer, after, written, ?_, kept, ?_⟩
    · intro error
      rw [failed, Shelf.updateOne_eq_error_iff]
    · intro succeeded
      obtain ⟨success, others⟩ := changed succeeded
      exact ⟨Shelf.updated_of_updateOne success, others⟩

/-- The first path of an update is assigned to the copy, the second goes into a number. -/
example :
    let memory := (seeded [("items", [("id", .string "a"), ("n", .int32 1)])]).toOption.getD empty
    backend.updateOne "items" Filter.everything [("n", .int32 2), ("n.x", .int32 3)] true memory =
      (.error (.invalidParams (.blockedField ["x"] .int32)), memory) := by
  rfl

end Memory

end DocStore
