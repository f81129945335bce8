import DocStore.Backend

/-!
# Scripted backends

A backend that plays back prepared replies, one for each call, and keeps a record of the calls.
It shows what a collection asks of its backend, and lets a backend answer anything. When the
replies run out, queries find nothing and writes succeed.
-/

namespace DocStore

/-- A call of a backend operation with its arguments. -/
inductive Call where
  | find (collection : String) (filter : Filter) (options : ScanOptions)
  | findOne (collection : String) (filter : Filter) (options : ScanOptions)
  | count (collection : String) (filter : Filter)
  | deleteMany (collection : String) (filter : Filter)
  | deleteOne (collection : String) (filter : Filter)
  | replaceOne (collection : String) (filter : Filter) (replacement : Document) (upsert : Bool)
  | updateOne (collection : String) (filter : Filter) (changes : Document) (upsert : Bool)
  | updateMany (collection : String) (filter : Filter) (changes : Document)
      (scopes : List ArrayFilter)
  | bulkWrite (collection : String) (writes : List Write)
  | dropCollection (collection : String)
  | shutdown
deriving Repr

/-- A prepared reply. A reply of the wrong sort for its call counts as nothing. -/
inductive Reply where
  | nothing
  | failure (error : StoreError)
  | stream (results : DocumentStream)
  | document (document : Document)
  | number (number : Nat)

/-- The replies that remain and the calls made so far. -/
structure Script where
  replies : List Reply
  calls : List Call := []

namespace Script

/-- Records a call and answers it with the next reply, read as the call needs it. -/
def answer {α : Type} (call : Call) (read : Reply → α) : Action Script α := fun script =>
  let calls := script.calls ++ [call]
  match script.replies with
  | [] => (.ok (read .nothing), ⟨[], calls⟩)
  | .failure error :: rest => (.error error, ⟨rest, calls⟩)
  | reply :: rest => (.ok (read reply), ⟨rest, calls⟩)

/-- A reply as the results of a query. -/
def streamOf : Reply → DocumentStream
  | .stream results => results
  | _ => []

/-- A reply as a single result. -/
def documentOf : Reply → Option Document
  | .document document => some document
  | _ => none

/-- A reply as a number. -/
def numberOf : Reply → Nat
  | .number number => number
  | _ => 0

/-- The backend that follows a script. -/
def backend : Backend Script where
  find collection filter options := answer (.find collection filter options) streamOf
  findOne collection filter options := answer (.findOne collection filter options) documentOf
  count collection filter := answer (.count collection filter) numberOf
  deleteMany collection filter := answer (.deleteMany collection filter) numberOf
  deleteOne collection filter := answer (.deleteOne collection filter) numberOf
  replaceOne collection filter replacement upsert :=
    answer (.replaceOne collection filter replacement upsert) fun _ => ()
  updateOne collection filter changes upsert :=
    answer (.updateOne collection filter changes upsert) fun _ => ()
  updateMany collection filter changes scopes :=
    answer (.updateMany collection filter changes scopes) fun _ => ()
  bulkWrite collection writes := answer (.bulkWrite collection writes) fun _ => ()
  dropCollection collection := answer (.dropCollection collection) fun _ => ()
  shutdown := answer .shutdown fun _ => ()

end Script

end DocStore
