import DocStore.Collection

/-!
# Paging through a collection

A page is fetched whole before any of it is delivered, so a page that cannot be had delivers
nothing. Documents are delivered in ascending order of their identifiers, whichever way the
window looks.

A window by cursors asks for one document more than its size. Getting it means that the scan goes
on behind the window, and it is cut off before delivery. The cursor itself need not name a
document: the window lies strictly behind or before it.
-/

namespace DocStore

/-- The greatest size that every backend accepts as a limit, that of a signed word. -/
def sizeLimit : Nat := 9223372036854775807

/-- A size together with the document that shows whether more follow. -/
def lookahead (size : Nat) : Nat := min (size + 1) sizeLimit

/-- A size that must not be negative; the name says which size is meant. -/
def nonNegative (name : String) (size : Int64) : Except StoreError Nat :=
  if size.toInt < 0 then .error (.invalidParams (.negative name)) else .ok size.toInt.toNat

/-- The same for a size that may be absent. -/
def nonNegative? (name : String) : Option Int64 → Except StoreError (Option Nat)
  | none => .ok none
  | some size =>
      match nonNegative name size with
      | .ok bound => .ok (some bound)
      | .error error => .error error

/-- Documents cut to a size, and whether any were cut off. -/
def trimmed (size : Option Nat) (documents : List Document) : List Document × Bool :=
  match size with
  | some bound =>
      if bound < documents.length then (documents.take bound, true) else (documents, false)
  | none => (documents, false)

/-- The documents of a page in the order of their delivery, and what lies on its sides. -/
structure Window where
  documents : List Document
  hasNext : Bool
  hasPrevious : Bool

/-- All the documents of a stream, unless there is an error among them. -/
def collectStream : DocumentStream → Except StoreError (List Document)
  | [] => .ok []
  | .error error :: _ => .error error
  | .ok document :: rest =>
      match collectStream rest with
      | .ok documents => .ok (document :: documents)
      | .error error => .error error

/-- The query by which a window is fetched: a filter and how to scan its matches. -/
structure WindowQuery where
  filter : Filter
  options : ScanOptions

/-- The query of a forward window. -/
def forwardQuery (filter : Filter) (first : Option Nat) (after : Option Cursor) : WindowQuery where
  filter :=
    match after with
    | some cursor => filter.and (.comparison idField .gt (.string cursor.text))
    | none => filter
  options := { ScanOptions.byId with limit := first.map lookahead }

/-- The query of a backward window. -/
def backwardQuery (filter : Filter) (last : Option Nat) (before : Option Cursor) : WindowQuery where
  filter :=
    match before with
    | some cursor => filter.and (.comparison idField .lt (.string cursor.text))
    | none => filter
  options := { ScanOptions.byIdDescending with limit := last.map lookahead }

/-- The window that the documents of a forward query make. -/
def forwardWindow (first : Option Nat) (after : Option Cursor) (documents : List Document) :
    Window :=
  match trimmed first documents with
  | (kept, more) => ⟨kept, more, after.isSome⟩

/-- The window that the documents of a backward query make. -/
def backwardWindow (last : Option Nat) (before : Option Cursor) (documents : List Document) :
    Window :=
  match trimmed last documents with
  | (kept, more) => ⟨kept.reverse, before.isSome, more⟩

/-- The cursors of the first and the last document, absent when there are none. -/
def boundaryCursors (documents : List Document) :
    Except StoreError (Option Cursor × Option Cursor) :=
  match documents.head?, documents.getLast? with
  | some first, some last =>
      match Document.cursor first with
      | .error error => .error error
      | .ok start =>
          match Document.cursor last with
          | .error error => .error error
          | .ok stop => .ok (some start, some stop)
  | _, _ => .ok (none, none)

namespace Collection

variable {σ κ : Type}

/-- Fetches all the documents of a query. -/
def fetch (collection : Collection σ) (query : WindowQuery) : Action σ (List Document) :=
  fun state =>
    match collection.backend.find collection.name query.filter query.options.diskUseAllowed state
      with
    | (.error error, next) => (.error error, next)
    | (.ok stream, next) => (collectStream stream, next)

/-- Fetches the documents of a query and makes a window of them. -/
def fetchWindow (collection : Collection σ) (query : WindowQuery)
    (frame : List Document → Window) : Action σ Window := fun state =>
  match collection.fetch query state with
  | (.error error, next) => (.error error, next)
  | (.ok documents, next) => (.ok (frame documents), next)

/-- The window of an offset request. A limit of zero fetches nothing, for backends take it as no
limit at all. -/
def offsetWindow (collection : Collection σ) (filter : Filter) (request : OffsetRequest)
    (total : Nat) : Action σ Window := fun state =>
  match nonNegative "offset" request.offset with
  | .error error => (.error error, state)
  | .ok offset =>
      match nonNegative "limit" request.limit with
      | .error error => (.error error, state)
      | .ok limit =>
          let frame (documents : List Document) : Window :=
            ⟨documents, decide (offset + documents.length < total), decide (0 < offset)⟩
          if limit = 0 then (.ok (frame []), state)
          else
            collection.fetchWindow
              ⟨filter, { ScanOptions.byId with skip := some offset, limit := some limit }⟩ frame
              state

/-- The window of a cursor request. It looks one way only; a request without any argument looks
forward over everything. -/
def cursorWindow (collection : Collection σ) (filter : Filter) (request : CursorRequest) :
    Action σ Window := fun state =>
  let forward := request.first.isSome || request.after.isSome
  let backward := request.last.isSome || request.before.isSome
  if forward && backward then (.error (.invalidParams .mixedDirections), state)
  else if backward then
    match nonNegative? "last" request.last with
    | .error error => (.error error, state)
    | .ok last =>
        collection.fetchWindow (backwardQuery filter last request.before)
          (backwardWindow last request.before) state
  else
    match nonNegative? "first" request.first with
    | .error error => (.error error, state)
    | .ok first =>
        collection.fetchWindow (forwardQuery filter first request.after)
          (forwardWindow first request.after) state

/-- The window that is asked for; without a request it is everything. -/
def window (collection : Collection σ) (filter : Filter) (request : Option Pagination)
    (total : Nat) : Action σ Window :=
  match request with
  | none => collection.fetchWindow ⟨filter, ScanOptions.byId⟩ fun documents =>
      ⟨documents, false, false⟩
  | some (.offset offset) => collection.offsetWindow filter offset total
  | some (.cursor cursor) => collection.cursorWindow filter cursor

/-- Delivers one page to a consumer and describes it. -/
def paginate (collection : Collection σ) (filter : Filter) (request : Option Pagination)
    (consumer : Consumer κ) : Action (σ × κ) PageInfo := fun (state, sink) =>
  match collection.count filter state with
  | (.error error, counted) => (.error error, (counted, sink))
  | (.ok total, counted) =>
      match collection.window filter request total counted with
      | (.error error, fetched) => (.error error, (fetched, sink))
      | (.ok window, fetched) =>
          match boundaryCursors window.documents with
          | .error error => (.error error, (fetched, sink))
          | .ok (start, stop) =>
              match consumer.deliver window.documents sink with
              | (.error error, filled) => (.error error, (fetched, filled))
              | (.ok (), filled) =>
                  (.ok ⟨total, start, stop, window.hasNext, window.hasPrevious⟩,
                    (fetched, filled))

end Collection

end DocStore
