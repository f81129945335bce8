import DocStore.Filter

/-!
# Queries and writes

The requests that a store understands beside a filter: how a scan is ordered and cut, and the
writes that a batch may hold.
-/

namespace DocStore

/-- The direction of a sort. -/
inductive Direction where
  | ascending
  | descending
deriving DecidableEq, Repr

/-- A sort by the first value that a field reaches. -/
structure SortOrder where
  field : String
  direction : Direction
deriving DecidableEq, Repr

/-- How a scan is ordered and cut. A limit of zero means no limit, as an absent one does. -/
structure ScanOptions where
  sort : Option SortOrder := none
  skip : Option Nat := none
  limit : Option Nat := none
  allowDiskUse : Option Bool := none
deriving DecidableEq, Repr

/-- The same options, with disk use allowed unless they already decide it. -/
def ScanOptions.diskUseAllowed (options : ScanOptions) : ScanOptions :=
  { options with allowDiskUse := some (options.allowDiskUse.getD true) }

/-- A scan from the lowest identifier to the highest. -/
def ScanOptions.byId : ScanOptions := { sort := some ⟨idField, .ascending⟩ }

/-- A scan from the highest identifier to the lowest. -/
def ScanOptions.byIdDescending : ScanOptions := { sort := some ⟨idField, .descending⟩ }

/-- One write of a batch: replace the first match, or change every match. -/
inductive Write where
  | replaceOne (filter : Filter) (replacement : Document) (upsert : Bool)
  | updateMany (filter : Filter) (changes : Document) (scopes : List ArrayFilter)
deriving Repr

/-- The documents that a write is about. -/
def Write.filter : Write → Filter
  | .replaceOne filter _ _ => filter
  | .updateMany filter _ _ => filter

/-- The replacement of the document of an identifier, which inserts it when it is absent. -/
def Write.save (identifier : String) (replacement : Document) : Write :=
  .replaceOne (Filter.id identifier) replacement true

/-- A change of every document that a filter accepts, limited to array elements by array
filters. -/
structure MassUpdate where
  filter : Filter
  changes : Document
  scopes : List ArrayFilter
deriving Repr

/-- A mass update as a write of a batch. -/
def MassUpdate.toWrite (update : MassUpdate) : Write :=
  .updateMany update.filter update.changes update.scopes

end DocStore
