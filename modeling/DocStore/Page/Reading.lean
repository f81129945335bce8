import DocStore.Json
import DocStore.Page

/-!
# Reading page requests

How requests for pages, and descriptions of pages, are read from JSON. A request is an object
with a single field, `cursor` or `offset`, that holds the arguments of that style.
-/

namespace DocStore

/-- Reads a cursor. -/
def Cursor.ofJson? (tree : Json) : Option Cursor := tree.text?.map Cursor.mk

/-- Reads the arguments of a cursor request, each of which may be missing or null. -/
def CursorRequest.ofJson? (tree : Json) : Option CursorRequest := do
  let fields ← tree.record? ["before", "after", "first", "last"] 4
  let before ← Json.optional fields "before" (Json.nullable Cursor.ofJson?) none
  let after ← Json.optional fields "after" (Json.nullable Cursor.ofJson?) none
  let first ← Json.optional fields "first" (Json.nullable Json.signed?) none
  let last ← Json.optional fields "last" (Json.nullable Json.signed?) none
  some ⟨before, after, first, last⟩

/-- Reads the arguments of an offset request, both of which are required. -/
def OffsetRequest.ofJson? (tree : Json) : Option OffsetRequest := do
  let fields ← tree.record? ["offset", "limit"] 2
  let offset ← Json.required fields "offset" Json.signed?
  let limit ← Json.required fields "limit" Json.signed?
  some ⟨offset, limit⟩

/-- Reads a request in one of the two styles. -/
def Pagination.ofJson? : Json → Option Pagination
  | .object [("cursor", arguments)] => (CursorRequest.ofJson? arguments).map .cursor
  | .object [("offset", arguments)] => (OffsetRequest.ofJson? arguments).map .offset
  | _ => none

/-- Reads the description of a page, whose cursors may be missing or null. -/
def PageInfo.ofJson? (tree : Json) : Option PageInfo := do
  let fields ← tree.record?
    ["total_count", "start_cursor", "end_cursor", "has_next_page", "has_previous_page"] 5
  let totalCount ← Json.required fields "total_count" Json.unsigned?
  let startCursor ← Json.optional fields "start_cursor" (Json.nullable Cursor.ofJson?) none
  let endCursor ← Json.optional fields "end_cursor" (Json.nullable Cursor.ofJson?) none
  let hasNextPage ← Json.required fields "has_next_page" Json.flag?
  let hasPreviousPage ← Json.required fields "has_previous_page" Json.flag?
  some ⟨totalCount, startCursor, endCursor, hasNextPage, hasPreviousPage⟩

end DocStore
