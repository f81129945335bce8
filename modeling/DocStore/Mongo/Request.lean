import DocStore.Mongo.Query

/-!
# Requests to a MongoDB server

The options of scans, the writes of a batch and the index on identifiers, as a MongoDB server
takes them. The server's own `_id` field is left out of every result.
-/

namespace DocStore.Mongo

/-- The options of a query. -/
structure FindOptions where
  sort : Option Document
  skip : Option Nat
  limit : Option Nat
  allowDiskUse : Option Bool
  projection : Document
deriving Repr

/-- The options of a query for a single document. -/
structure FindOneOptions where
  sort : Option Document
  skip : Option Nat
  projection : Document
deriving Repr

/-- The greatest limit that a server takes, that of a signed word. -/
def greatestLimit : Nat := 9223372036854775807

/-- The fields of a result: all but the server's own. -/
def projection : Document := [("_id", .int32 0)]

/-- The options of a scan; a limit beyond the server's range is refused. -/
def findOptions (options : ScanOptions) : Except StoreError FindOptions :=
  let prepared (limit : Option Nat) : FindOptions :=
    ⟨options.sort.map sortDocument, options.skip, limit, options.allowDiskUse, projection⟩
  match options.limit with
  | none => .ok (prepared none)
  | some limit =>
      if greatestLimit < limit then .error (.invalidParams (.limitTooLarge limit))
      else .ok (prepared (some limit))

/-- The options of a scan for its first document, which have no use for a limit. -/
def findOneOptions (options : ScanOptions) : FindOneOptions :=
  ⟨options.sort.map sortDocument, options.skip, projection⟩

/-- A write of a batch on a namespace, the name of a collection behind that of its database. -/
inductive WriteModel where
  | replaceOne (target : String) (filter : Document) (replacement : Document) (upsert : Bool)
  | updateMany (target : String) (filter : Document) (update : Document)
      (arrayFilters : Option (List Document))
deriving Repr

/-- The name of a collection behind the name of its database. -/
def namespaceOf (database collection : String) : String := database ++ "." ++ collection

/-- The update document that sets fields. -/
def setDocument (changes : Document) : Document := condition "$set" (.document changes)

/-- A write as the server takes it. The filter is considered before the array filters, and
without array filters the server is told of none. -/
def writeModel (target : String) : Write → Except StoreError WriteModel
  | .replaceOne filter replacement upsert =>
      match query filter with
      | .ok conditions => .ok (.replaceOne target conditions replacement upsert)
      | .error error => .error error
  | .updateMany filter changes scopes =>
      match query filter with
      | .error error => .error error
      | .ok conditions =>
          match scopes with
          | [] => .ok (.updateMany target conditions (setDocument changes) none)
          | first :: rest =>
              match arrayFilterQueries (first :: rest) with
              | .error error => .error error
              | .ok queries =>
                  .ok (.updateMany target conditions (setDocument changes) (some queries))

/-- An index of a collection. -/
structure Index where
  keys : Document
  name : String
  unique : Bool
deriving Repr

/-- The index that keeps identifiers unique. -/
def idIndex : Index := ⟨[(idField, .int32 1)], "id_unique", true⟩

end DocStore.Mongo
