import DocStore.Backend
import DocStore.Memory.Shelf

/-!
# The store in memory

Named shelves, and the backend over them. A collection that was never written is an empty shelf,
so nothing tells an absent collection from an empty one.
-/

namespace DocStore

/-- Every collection of the store under its name. -/
structure Memory where
  shelves : Table Shelf

namespace Memory

/-- The store without documents. -/
def empty : Memory := ⟨Table.empty⟩

/-- The documents of a collection. -/
def shelf (memory : Memory) (name : String) : Shelf :=
  (memory.shelves.find? name).getD Table.empty

/-- The store with the documents of one collection exchanged. -/
def withShelf (memory : Memory) (name : String) (shelf : Shelf) : Memory :=
  ⟨memory.shelves.put name shelf⟩

/-- The documents of a collection are those that were put there last. -/
theorem shelf_withShelf (memory : Memory) (name other : String) (shelf : Shelf) :
    (memory.withShelf name shelf).shelf other =
      if name = other then shelf else memory.shelf other := by
  simp only [Memory.shelf, withShelf, Table.find?_put]
  split <;> simp

/-- Runs a change of one collection that either succeeds or does nothing. -/
def change (name : String) (edit : Shelf → Except StoreError Shelf) : Action Memory Unit :=
  fun memory =>
    match edit (memory.shelf name) with
    | .ok changed => (.ok (), memory.withShelf name changed)
    | .error error => (.error error, memory)

/-- Runs a change of one collection that may keep a part of what it does when it fails. -/
def changePartly (name : String) (edit : Shelf → Except StoreError Unit × Shelf) :
    Action Memory Unit :=
  fun memory =>
    match edit (memory.shelf name) with
    | (answer, changed) => (answer, memory.withShelf name changed)

/-- Adds documents to their collections in the order given; the first clash ends it. -/
def seedAll [KeySource] : List (String × Document) → Memory → Except StoreError Memory
  | [], memory => .ok memory
  | (name, document) :: rest, memory =>
      match (memory.shelf name).insert document with
      | .error error => .error error
      | .ok grown => seedAll rest (memory.withShelf name grown)

/-- The store that holds exactly the given documents, each in the collection named before it. -/
def seeded [KeySource] (documents : List (String × Document)) : Except StoreError Memory :=
  seedAll documents empty

/-- The operations of a store over its shelves. Only writes can fail. -/
def backend [KeySource] : Backend Memory where
  find name filter options := fun memory =>
    (.ok (((memory.shelf name).scan filter options).map .ok), memory)
  findOne name filter options := fun memory =>
    (.ok ((memory.shelf name).scanOne filter options), memory)
  count name filter := fun memory =>
    (.ok ((memory.shelf name).count filter), memory)
  deleteMany name filter := fun memory =>
    (.ok ((memory.shelf name).count filter),
      memory.withShelf name ((memory.shelf name).deleteMany filter))
  deleteOne name filter := fun memory =>
    match (memory.shelf name).deleteOne filter with
    | (removed, changed) => (.ok removed, memory.withShelf name changed)
  replaceOne name filter replacement upsert :=
    change name fun shelf => shelf.replaceOne filter replacement upsert
  updateOne name filter changes upsert :=
    change name fun shelf => shelf.updateOne filter changes upsert
  updateMany name filter changes scopes :=
    changePartly name fun shelf => shelf.updateMany filter changes scopes
  bulkWrite name writes := changePartly name (Shelf.writeAll writes)
  dropCollection name := fun memory => (.ok (), ⟨memory.shelves.erase name⟩)
  shutdown := fun memory => (.ok (), memory)

end Memory

end DocStore
