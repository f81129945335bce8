import DocStore.Error
import DocStore.Query

/-!
# Backends

What a collection needs of a physical store. A backend over states `σ` is a record of actions: each
takes a state to an answer and the next state, also when the answer is an error, because some
writes fail half way and keep what they have done.
-/

namespace DocStore

/-- A step that answers or fails, and in both cases leaves a next state. -/
abbrev Action (σ α : Type) := σ → Except StoreError α × σ

/-- The results of a query in the order of their arrival. An error in it means that the query
broke there. -/
abbrev DocumentStream := List (Except StoreError Document)

/-- The operations of a physical store, each on a collection given by name. -/
structure Backend (σ : Type) where
  /-- Opens a query over the matching documents. -/
  find : String → Filter → ScanOptions → Action σ DocumentStream
  /-- The first document that the query would yield. -/
  findOne : String → Filter → ScanOptions → Action σ (Option Document)
  /-- The number of matching documents. -/
  count : String → Filter → Action σ Nat
  /-- Removes every match and tells how many there were. -/
  deleteMany : String → Filter → Action σ Nat
  /-- Removes at most one match and tells how many there were. -/
  deleteOne : String → Filter → Action σ Nat
  /-- Replaces the first match, or inserts the document when there is none and that is asked. -/
  replaceOne : String → Filter → Document → Bool → Action σ Unit
  /-- Changes the first match, or inserts a document when there is none and that is asked. -/
  updateOne : String → Filter → Document → Bool → Action σ Unit
  /-- Changes every match. -/
  updateMany : String → Filter → Document → List ArrayFilter → Action σ Unit
  /-- Carries out writes in order up to the first failure. -/
  bulkWrite : String → List Write → Action σ Unit
  /-- Removes a collection with all its documents. -/
  dropCollection : String → Action σ Unit
  /-- Releases what the store holds. -/
  shutdown : Action σ Unit

end DocStore
