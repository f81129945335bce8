import DocStore.Error
import DocStore.Filter

/-!
# Pages

What a page of a scan is asked by and described by. A cursor is the identifier of a document. A
cursor request asks for the documents behind or before a cursor, an offset request for a number
of documents after skipping others. Sizes are signed, and a negative size is refused when it is
used.
-/

namespace DocStore

/-- The name of a document by its identifier, to resume a scan from. -/
structure Cursor where
  text : String
deriving DecidableEq, Repr

/-- A window by cursors: `first` and `after` look forward, `last` and `before` look back. -/
structure CursorRequest where
  before : Option Cursor := none
  after : Option Cursor := none
  first : Option Int64 := none
  last : Option Int64 := none
deriving DecidableEq, Repr

/-- The window of a number of documents behind a cursor. -/
def CursorRequest.forward (first : Int64) (after : Option Cursor) : CursorRequest :=
  { first := some first, after := after }

/-- The window of a number of documents before a cursor. -/
def CursorRequest.backward (last : Int64) (before : Option Cursor) : CursorRequest :=
  { last := some last, before := before }

/-- A window by position. -/
structure OffsetRequest where
  offset : Int64
  limit : Int64
deriving DecidableEq, Repr

/-- A request for a page, in one of the two styles. -/
inductive Pagination where
  | cursor (request : CursorRequest)
  | offset (request : OffsetRequest)
deriving DecidableEq, Repr

namespace Pagination

/-- The cursor request, if it is one. -/
def cursor? : Pagination → Option CursorRequest
  | .cursor request => some request
  | .offset _ => none

/-- The offset request, if it is one. -/
def offset? : Pagination → Option OffsetRequest
  | .offset request => some request
  | .cursor _ => none

/-- Changes a cursor request and leaves an offset request alone. -/
def editCursor (edit : CursorRequest → CursorRequest) : Pagination → Pagination
  | .cursor request => .cursor (edit request)
  | .offset request => .offset request

/-- Changes an offset request and leaves a cursor request alone. -/
def editOffset (edit : OffsetRequest → OffsetRequest) : Pagination → Pagination
  | .offset request => .offset (edit request)
  | .cursor request => .cursor request

end Pagination

/-- What is told about a page beside its documents: how many documents match in all, the cursors
of its first and last document, and whether more lie on either side. -/
structure PageInfo where
  totalCount : Nat
  startCursor : Option Cursor := none
  endCursor : Option Cursor := none
  hasNextPage : Bool := false
  hasPreviousPage : Bool := false
deriving DecidableEq, Repr

/-- The cursor of a document: its identifier, which has to be a string. -/
def Document.cursor (document : Document) : Except StoreError Cursor :=
  match Document.field? document idField with
  | some (.string identifier) => .ok ⟨identifier⟩
  | some other => .error (.internal (.cursorKind other.kind))
  | none => .error (.internal .cursorMissing)

/-- A document has a cursor exactly when its identifier is a string. -/
theorem Document.cursor_eq_ok_iff (document : Document) (cursor : Cursor) :
    Document.cursor document = .ok cursor ↔
      Document.field? document idField = some (.string cursor.text) := by
  unfold Document.cursor
  cases Document.field? document idField with
  | none => simp
  | some value => cases value <;> cases cursor <;> simp

end DocStore
