import DocStore.Memory
import DocStore.Proofs.Identifiers
import DocStore.Proofs.TableLaws

/-!
# Invariants of shelves

What is said of every stored document, together with the key it stands under, is kept by a write
on two conditions. A document that the write stores whole has to satisfy it under the key that
any shelf would choose. An update has to keep it for the document under one key. Nothing is asked
of filters, upserts, or the point where a mass update or a batch fails, because a failed step
leaves the documents as the steps before it made them.
-/

namespace DocStore.Shelf

/-- The property of a document that is stored whole, under any key a shelf would choose. -/
def Storable [KeySource] (holds : String → Document → Prop) (document : Document) : Prop :=
  ∀ shelf : Shelf, holds (shelf.keyFor document) document

/-- The property survives the updates that succeed, under an unchanged key. -/
def Survives (holds : String → Document → Prop) (changes : Document)
    (scopes : List ArrayFilter) : Prop :=
  ∀ key document changed, holds key document → document.update scopes changes = .ok changed →
    holds key changed

/-- The property is kept by a write of a batch. -/
def Keeps [KeySource] (holds : String → Document → Prop) : Write → Prop
  | .replaceOne _ replacement _ => Storable holds replacement
  | .updateMany _ changes scopes => Survives holds changes scopes

/-- A document is added exactly when its key is vacant. -/
theorem insert_eq_ok_iff [KeySource] (shelf grown : Shelf) (document : Document) :
    shelf.insert document = .ok grown ↔
      shelf.find? (shelf.keyFor document) = none ∧
        grown = shelf.put (shelf.keyFor document) document := by
  rw [← Table.insertNew?_eq_some_iff]
  unfold insert
  cases shelf.insertNew? (shelf.keyFor document) document <;> simp

end DocStore.Shelf

namespace DocStore.Table

variable {holds : String → Document → Prop}

/-- Adding a storable document keeps the property. -/
theorem Each.insert [KeySource] {shelf grown : Shelf} (each : Each holds shelf)
    {document : Document} (own : Shelf.Storable holds document)
    (success : shelf.insert document = .ok grown) : Each holds grown := by
  obtain ⟨_, rfl⟩ := (Shelf.insert_eq_ok_iff shelf grown document).mp success
  exact each.put (own shelf)

/-- Replacing the first match by a storable document keeps the property. -/
theorem Each.replaceOne [KeySource] {shelf changed : Shelf} (each : Each holds shelf)
    {filter : Filter} {replacement : Document} {upsert : Bool}
    (own : Shelf.Storable holds replacement)
    (success : shelf.replaceOne filter replacement upsert = .ok changed) :
    Each holds changed := by
  unfold Shelf.replaceOne at success
  split at success
  · rename_i key _ _
    exact (each.erase key).insert own success
  · split at success
    · exact each.insert own success
    · cases success
      exact each

/-- Updating the document of one key keeps a property that survives the update. -/
theorem Each.updateAt {shelf changed : Shelf} (each : Each holds shelf) {changes : Document}
    {scopes : List ArrayFilter} (survives : Shelf.Survives holds changes scopes) {key : String}
    (success : shelf.updateAt changes scopes key = .ok changed) : Each holds changed := by
  unfold Shelf.updateAt at success
  split at success
  · cases success
    exact each
  · rename_i document found
    split at success
    · rename_i result updated
      cases success
      exact each.put (survives key document result (each key document found) updated)
    · cases success

/-- Updating the documents of several keys in turn keeps the property, also when it stops at a
document that cannot be updated. -/
theorem Each.updateEach {shelf : Shelf} (each : Each holds shelf) {changes : Document}
    {scopes : List ArrayFilter} (survives : Shelf.Survives holds changes scopes)
    (keys : List String) :
    Each holds (Shelf.updateEach changes scopes keys shelf).2 := by
  induction keys generalizing shelf with
  | nil => exact each
  | cons key keys ih =>
      simp only [Shelf.updateEach]
      split
      · exact each
      · rename_i changed success
        exact ih (each.updateAt survives success)

/-- Updating the first match, or inserting on behalf of the filter, keeps the property if it
survives the update and the inserted document is storable. -/
theorem Each.updateOne [KeySource] {shelf changed : Shelf} (each : Each holds shelf)
    {filter : Filter} {changes : Document} {upsert : Bool}
    (survives : Shelf.Survives holds changes [])
    (inserted : ∀ document, Document.update [] filter.equalityFields changes = .ok document →
      Shelf.Storable holds document)
    (success : shelf.updateOne filter changes upsert = .ok changed) : Each holds changed := by
  unfold Shelf.updateOne at success
  split at success
  · exact each.updateAt survives success
  · split at success
    · split at success
      · rename_i document updated
        exact each.insert (inserted document updated) success
      · cases success
    · cases success
      exact each

/-- Every write of a batch keeps the property, whether it succeeds or fails. -/
theorem Each.write [KeySource] {shelf : Shelf} (each : Each holds shelf) {write : Write}
    (keeps : Shelf.Keeps holds write) : Each holds (shelf.write write).2 := by
  cases write with
  | replaceOne filter replacement upsert =>
      simp only [Shelf.write]
      split
      · rename_i changed success
        exact each.replaceOne keeps success
      · exact each
  | updateMany filter changes scopes => exact each.updateEach keeps _

/-- A batch keeps what each of its writes keeps. The induction follows the writes; the first that
fails ends the batch, with what it has done. -/
theorem Each.writeAll [KeySource] {shelf : Shelf} (each : Each holds shelf) {writes : List Write}
    (keep : ∀ write ∈ writes, Shelf.Keeps holds write) :
    Each holds (Shelf.writeAll writes shelf).2 := by
  induction writes generalizing shelf with
  | nil => exact each
  | cons first rest ih =>
      have after : Each holds (shelf.write first).2 := each.write (keep first List.mem_cons_self)
      simp only [Shelf.writeAll]
      split
      · rename_i changed outcome
        rw [outcome] at after
        exact after
      · rename_i changed outcome
        rw [outcome] at after
        exact ih after fun write inside => keep write (List.mem_cons_of_mem _ inside)

/-- Removing at most one match keeps the property of the rest. -/
theorem Each.deleteOne {shelf : Shelf} (each : Each holds shelf) (filter : Filter) :
    Each holds (shelf.deleteOne filter).2 := by
  unfold Shelf.deleteOne
  split
  · rename_i key _ _
    exact each.erase key
  · exact each

end DocStore.Table

namespace DocStore.Memory

variable {holds : String → Document → Prop}

/-- A change of one collection that fails leaves its documents, and no change touches another
collection. -/
theorem shelf_change (name other : String) (edit : Shelf → Except StoreError Shelf)
    (memory : Memory) :
    (change name edit memory).2.shelf other =
      if name = other then (edit (memory.shelf name)).toOption.getD (memory.shelf name)
      else memory.shelf other := by
  unfold change
  cases edit (memory.shelf name) with
  | ok changed => exact shelf_withShelf memory name other changed
  | error error =>
      by_cases same : name = other
      · rw [if_pos same, same]
        rfl
      · rw [if_neg same]

/-- A change of one collection keeps what the change keeps of its shelf, in every collection. -/
theorem each_change {memory : Memory} {name other : String}
    {edit : Shelf → Except StoreError Shelf} (each : Table.Each holds (memory.shelf other))
    (kept : ∀ shelf changed, Table.Each holds shelf → edit shelf = .ok changed →
      Table.Each holds changed) :
    Table.Each holds ((change name edit memory).2.shelf other) := by
  rw [shelf_change]
  split
  · rename_i same
    subst same
    cases success : edit (memory.shelf name) with
    | ok changed => exact kept _ _ each success
    | error error => exact each
  · exact each

/-- Exchanging one collection for a shelf that satisfies the property keeps it everywhere. -/
theorem each_withShelf {memory : Memory} {name other : String} {shelf : Shelf}
    (each : Table.Each holds (memory.shelf other))
    (own : Table.Each holds (memory.shelf name) → Table.Each holds shelf) :
    Table.Each holds ((memory.withShelf name shelf).shelf other) := by
  rw [shelf_withShelf]
  split
  · rename_i same
    subst same
    exact own each
  · exact each

/-- Dropping a collection leaves an empty one and the others as they are. -/
theorem shelf_drop (memory : Memory) (name other : String) :
    Memory.shelf ⟨memory.shelves.erase name⟩ other =
      if name = other then Table.empty else memory.shelf other := by
  simp only [Memory.shelf, Table.find?_erase]
  split <;> rfl

/-- A store seeded with storable documents satisfies the property in every collection. -/
theorem each_seedAll [KeySource] {seeds : List (String × Document)} {memory seeded : Memory}
    (each : ∀ name, Table.Each holds (memory.shelf name))
    (storable : ∀ seed ∈ seeds, Shelf.Storable holds seed.2)
    (success : seedAll seeds memory = .ok seeded) (name : String) :
    Table.Each holds (seeded.shelf name) := by
  induction seeds generalizing memory with
  | nil =>
      cases success
      exact each name
  | cons seed rest ih =>
      obtain ⟨target, document⟩ := seed
      simp only [seedAll] at success
      split at success
      · cases success
      · rename_i grown added
        have grownEach : Table.Each holds grown :=
          (each target).insert (storable _ List.mem_cons_self) added
        refine ih ?_ ?_ success
        · intro other
          exact each_withShelf (each other) fun _ => grownEach
        · intro later inside
          exact storable later (List.mem_cons_of_mem _ inside)

end DocStore.Memory
