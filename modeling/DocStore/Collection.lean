import DocStore.Consumer
import DocStore.Page

/-!
# Collections

A collection is a name in a backend. It answers queries by letting their results flow into a
consumer, and it turns the writes of its callers into operations of the backend. Identifiers are
the means of single writes: saving under an identifier replaces or inserts, and setting fields
under an identifier changes or inserts.
-/

namespace DocStore

/-- A named collection of a backend over states `σ`. -/
structure Collection (σ : Type) where
  name : String
  backend : Backend σ

/-- The collection that keeps the values of a type. -/
def Backend.collectionFor {σ α : Type} (backend : Backend σ) (codec : Codec α) : Collection σ :=
  ⟨codec.collection, backend⟩

namespace Collection

variable {σ κ : Type}

/-- Lets every match flow into a consumer. Disk use is allowed unless the options say no. -/
def find (collection : Collection σ) (filter : Filter) (options : ScanOptions)
    (consumer : Consumer κ) : Action (σ × κ) Unit := fun (state, sink) =>
  match collection.backend.find collection.name filter options.diskUseAllowed state with
  | (.error error, next) => (.error error, (next, sink))
  | (.ok stream, next) =>
      match consumer.drain stream sink with
      | (answer, filled) => (answer, (next, filled))

/-- Hands the first match to a consumer, without a call at the end; there must be a match. -/
def findOne (collection : Collection σ) (filter : Filter) (options : ScanOptions)
    (consumer : Consumer κ) : Action (σ × κ) Unit := fun (state, sink) =>
  match collection.backend.findOne collection.name filter options state with
  | (.error error, next) => (.error error, (next, sink))
  | (.ok none, next) => (.error .notFound, (next, sink))
  | (.ok (some document), next) =>
      match consumer.feed document sink with
      | (.ok _, filled) => (.ok (), (next, filled))
      | (.error error, filled) => (.error error, (next, filled))

/-- The number of matches. -/
def count (collection : Collection σ) (filter : Filter) : Action σ Nat :=
  collection.backend.count collection.name filter

/-- Removes every match; there need be none. -/
def removeAll (collection : Collection σ) (filter : Filter) : Action σ Unit := fun state =>
  match collection.backend.deleteMany collection.name filter state with
  | (.ok _, next) => (.ok (), next)
  | (.error error, next) => (.error error, next)

/-- Removes one match; there must be one. -/
def removeOne (collection : Collection σ) (filter : Filter) : Action σ Unit := fun state =>
  match collection.backend.deleteOne collection.name filter state with
  | (.ok 0, next) => (.error .notFound, next)
  | (.ok _, next) => (.ok (), next)
  | (.error error, next) => (.error error, next)

/-- Replaces the first match, or inserts the document. -/
def replaceOne (collection : Collection σ) (filter : Filter) (replacement : Document) :
    Action σ Unit :=
  collection.backend.replaceOne collection.name filter replacement true

/-- Replaces the document of an identifier, or inserts it. -/
def saveOne (collection : Collection σ) (identifier : String) (replacement : Document) :
    Action σ Unit :=
  collection.replaceOne (Filter.id identifier) replacement

/-- Sets fields of the document of an identifier, or inserts a document with them. -/
def setOne (collection : Collection σ) (identifier : String) (changes : Document) :
    Action σ Unit :=
  collection.backend.updateOne collection.name (Filter.id identifier) changes true

/-- Submits writes as one batch; without writes the backend is not asked. -/
def submit (collection : Collection σ) (writes : List Write) : Action σ Unit := fun state =>
  match writes with
  | [] => (.ok (), state)
  | first :: rest => collection.backend.bulkWrite collection.name (first :: rest) state

/-- Saves each document under the identifier at its position, as one batch. Nothing is saved when
either list is empty, and lists of different lengths are refused. -/
def saveAll (collection : Collection σ) (identifiers : List String)
    (documents : List Document) : Action σ Unit := fun state =>
  if identifiers.isEmpty || documents.isEmpty then (.ok (), state)
  else if identifiers.length ≠ documents.length then
    (.error (.invalidParams (.unequalLengths identifiers.length documents.length)), state)
  else collection.submit (List.zipWith Write.save identifiers documents) state

/-- Changes every match. -/
def updateMany (collection : Collection σ) (filter : Filter) (changes : Document) :
    Action σ Unit :=
  collection.backend.updateMany collection.name filter changes []

/-- Submits mass updates as one batch. -/
def updateEach (collection : Collection σ) (updates : List MassUpdate) : Action σ Unit :=
  collection.submit (updates.map MassUpdate.toWrite)

/-- Removes the collection with all its documents. -/
def drop (collection : Collection σ) : Action σ Unit :=
  collection.backend.dropCollection collection.name

end Collection

/-- Writes gathered for one submission, in order. -/
structure Batch where
  writes : List Write := []
deriving Repr

namespace Batch

/-- Adds a write at the end. -/
def add (batch : Batch) (write : Write) : Batch := ⟨batch.writes ++ [write]⟩

/-- The number of writes. -/
def size (batch : Batch) : Nat := batch.writes.length

/-- True exactly when there is no write. -/
def isEmpty (batch : Batch) : Bool := batch.writes.isEmpty

/-- Submits the writes to a collection. -/
def submit {σ : Type} (batch : Batch) (collection : Collection σ) : Action σ Unit :=
  collection.submit batch.writes

end Batch

end DocStore
