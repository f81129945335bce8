import DocStore.Collection.Paginate

/-!
# Walks

A walk follows pages of one size in one direction, each from the cursor where the page before it
ended, until a page says that there are no more.
-/

namespace DocStore

/-- The way a walk goes through the identifiers. -/
inductive Way where
  | forward
  | backward
deriving DecidableEq, Repr

namespace Way

/-- The request for the page of a size that begins at a cursor, or at the end of the collection
that the walk starts from. -/
def request (way : Way) (size : Int64) (cursor : Option Cursor) : CursorRequest :=
  match way with
  | .forward => .forward size cursor
  | .backward => .backward size cursor

/-- The cursor at which the walk goes on after a page; there is none when the page is the last or
empty. -/
def next? (way : Way) (info : PageInfo) : Option Cursor :=
  match way with
  | .forward => if info.hasNextPage then info.endCursor else none
  | .backward => if info.hasPreviousPage then info.startCursor else none

end Way

/-- A page of a walk: what its consumer was called with, and its description. -/
structure WalkedPage where
  calls : List (Option Document)
  info : PageInfo

/-- How a walk ends: with its last page, with an error, or at the bound on the number of pages. -/
inductive WalkEnd where
  | finished
  | failed (error : StoreError)
  | bounded

namespace Collection

variable {σ : Type}

/-- Walks from a cursor for at most `bound` pages. -/
def walkFrom (collection : Collection σ) (filter : Filter) (way : Way) (size : Int64) :
    Nat → Option Cursor → σ → (List WalkedPage × WalkEnd) × σ
  | 0, _, state => (([], .bounded), state)
  | bound + 1, cursor, state =>
      match collection.paginate filter (some (.cursor (way.request size cursor)))
          (Consumer.recorder none) (state, []) with
      | (.error error, (next, _)) => (([], .failed error), next)
      | (.ok info, (next, calls)) =>
          match way.next? info with
          | none => (([⟨calls, info⟩], .finished), next)
          | some resume =>
              match walkFrom collection filter way size bound (some resume) next with
              | ((pages, stop), last) => ((⟨calls, info⟩ :: pages, stop), last)

end Collection

end DocStore
