import DocStore.Collection.Walk
import DocStore.Proofs.IdScans

/-!
# Pages by cursors

On a shelf that satisfies the convention, the page of a number of documents at a cursor is cut
from the matches ahead of the cursor, the ones nearest to it. The page says that the walk goes on
exactly when more matches lie ahead than it delivers, and the next page resumes at the last of
those that it does deliver. Both directions are treated at once: the matches ahead are listed in
the order in which the walk meets them, and a page is delivered in ascending order.
-/

namespace DocStore

namespace Way

variable {α β : Type}

/-- Exchanges the ascending order of identifiers with the order of a walk. -/
def arrange (way : Way) (items : List α) : List α :=
  match way with
  | .forward => items
  | .backward => items.reverse

/-- The walk meets the left identifier before the right one. -/
def Precedes (way : Way) (left right : String) : Prop :=
  match way with
  | .forward => left < right
  | .backward => right < left

/-- True exactly when an identifier lies ahead of a cursor; without one everything does. -/
def ahead (way : Way) (cursor : Option Cursor) (identifier : String) : Bool :=
  match cursor with
  | none => true
  | some cursor =>
      match way with
      | .forward => decide (cursor.text < identifier)
      | .backward => decide (identifier < cursor.text)

/-- The query by which a page is fetched. -/
def query (way : Way) (filter : Filter) (size : Nat) (cursor : Option Cursor) : WindowQuery :=
  match way with
  | .forward => forwardQuery filter (some size) cursor
  | .backward => backwardQuery filter (some size) cursor

/-- The window that the documents of the query make. -/
def frame (way : Way) (size : Nat) (cursor : Option Cursor) (documents : List Document) :
    Window :=
  match way with
  | .forward => forwardWindow (some size) cursor documents
  | .backward => backwardWindow (some size) cursor documents

/-- True exactly when a page says that more documents lie ahead of it. -/
def goesOn (way : Way) (info : PageInfo) : Bool :=
  match way with
  | .forward => info.hasNextPage
  | .backward => info.hasPreviousPage

/-- The cursor of a page at which the walk meets its last document. -/
def resume (way : Way) (info : PageInfo) : Option Cursor :=
  match way with
  | .forward => info.endCursor
  | .backward => info.startCursor

/-- The walk goes on at the cursor of a page as long as the page says so. -/
theorem next?_eq (way : Way) (info : PageInfo) :
    way.next? info = if way.goesOn info then way.resume info else none := by
  cases way <;> rfl

/-- Arranging rearranges nothing else. -/
theorem map_arrange (way : Way) (items : List α) (rewrite : α → β) :
    (way.arrange items).map rewrite = way.arrange (items.map rewrite) := by
  cases way with
  | forward => rfl
  | backward => exact List.map_reverse

/-- Arranging keeps the members. -/
theorem mem_arrange_iff (way : Way) (items : List α) (item : α) :
    item ∈ way.arrange items ↔ item ∈ items := by
  cases way with
  | forward => exact Iff.rfl
  | backward => exact List.mem_reverse

end Way

namespace Shelf

/-- The matches ahead of a cursor with their keys, in the order in which a walk meets them. -/
def matchesAhead (shelf : Shelf) (way : Way) (filter : Filter) (cursor : Option Cursor) :
    List (String × Document) :=
  way.arrange ((shelf.matching filter).bindings.filter fun binding => way.ahead cursor binding.1)

/-- The bindings on the page of a size at a cursor, in ascending order. -/
def page (shelf : Shelf) (way : Way) (filter : Filter) (size : Nat) (cursor : Option Cursor) :
    List (String × Document) :=
  way.arrange ((shelf.matchesAhead way filter cursor).take size)

/-- The description of the page of a size at a cursor. -/
def pageInfo (shelf : Shelf) (way : Way) (filter : Filter) (size : Nat)
    (cursor : Option Cursor) : PageInfo :=
  let bindings := shelf.page way filter size cursor
  let more := decide (size < (shelf.matchesAhead way filter cursor).length)
  { totalCount := shelf.count filter
    startCursor := bindings.head?.map fun binding => ⟨binding.1⟩
    endCursor := bindings.getLast?.map fun binding => ⟨binding.1⟩
    hasNextPage := match way with
      | .forward => more
      | .backward => cursor.isSome
    hasPreviousPage := match way with
      | .forward => cursor.isSome
      | .backward => more }

/-- The filter of a query accepts what the filter of its page accepts ahead of the cursor. -/
theorem bindings_matching_query {shelf : Shelf} (conventional : shelf.Conventional) (way : Way)
    (filter : Filter) (size : Nat) (cursor : Option Cursor) :
    (shelf.matching (way.query filter size cursor).filter).bindings =
      (shelf.matching filter).bindings.filter fun binding => way.ahead cursor binding.1 := by
  simp only [matching, Table.filter, List.filter_filter]
  apply List.filter_congr
  intro binding listed
  have carried : binding.2.IdentifiedBy binding.1 := conventional.identified listed
  cases cursor with
  | none => cases way <;> simp [Way.query, forwardQuery, backwardQuery, Way.ahead]
  | some cursor =>
      cases way with
      | forward =>
          simp only [Way.query, forwardQuery, Way.ahead, Document.matches_and]
          rw [carried.matches_gt, Bool.and_comm]
      | backward =>
          simp only [Way.query, backwardQuery, Way.ahead, Document.matches_and]
          rw [carried.matches_lt, Bool.and_comm]

/-- A positive limit cuts a scan to its length. -/
theorem window_limit {bound : Nat} (positive : 0 < bound) (documents : List Document) :
    window none (some bound) documents = documents.take bound := by
  cases bound with
  | zero => exact absurd positive (Nat.lt_irrefl 0)
  | succ bound => rfl

/-- A query finds the nearest matches ahead of the cursor, one more than the size of its page. -/
theorem scan_query {shelf : Shelf} (conventional : shelf.Conventional) (way : Way)
    (filter : Filter) (size : Nat) (cursor : Option Cursor) :
    shelf.scan (way.query filter size cursor).filter
        (way.query filter size cursor).options.diskUseAllowed =
      ((shelf.matchesAhead way filter cursor).map (·.2)).take (lookahead size) := by
  have positive : 0 < lookahead size := by
    unfold lookahead sizeLimit
    omega
  have found := bindings_matching_query conventional way filter size cursor
  have matched := conventional.matching (way.query filter size cursor).filter
  cases way with
  | forward =>
      have ordered := sorted_ascending matched
      change window none (some (lookahead size)) (sorted (some ⟨idField, .ascending⟩)
        (shelf.matching (Way.forward.query filter size cursor).filter).values) = _
      rw [window_limit positive, ordered, Table.values, found, matchesAhead, Way.arrange]
  | backward =>
      have ordered := sorted_descending matched
      change window none (some (lookahead size)) (sorted (some ⟨idField, .descending⟩)
        (shelf.matching (Way.backward.query filter size cursor).filter).values) = _
      rw [window_limit positive, ordered, Table.values, found, matchesAhead, Way.arrange,
        List.map_reverse]

end Shelf

/-- A stream without errors is collected whole. -/
theorem collectStream_map_ok (documents : List Document) :
    collectStream (documents.map .ok) = .ok documents := by
  induction documents with
  | nil => rfl
  | cons document documents ih => simp [collectStream, ih]

/-- Of the documents that the lookahead admits, the size of a page is kept. The document beyond it
is there exactly when there are more than the size. -/
theorem trimmed_lookahead {size : Nat} (below : size < sizeLimit) (documents : List Document) :
    trimmed (some size) (documents.take (lookahead size)) =
      (documents.take size, decide (size < documents.length)) := by
  have ahead : lookahead size = size + 1 := by
    unfold lookahead
    omega
  simp only [trimmed, ahead, List.length_take, List.take_take]
  by_cases more : size < documents.length
  · have cut : size < min (size + 1) documents.length := by omega
    rw [if_pos cut, Nat.min_eq_left (Nat.le_succ size), decide_eq_true more]
  · have whole : ¬ size < min (size + 1) documents.length := by omega
    have short : documents.length ≤ size := by omega
    rw [if_neg whole, decide_eq_false more, List.take_of_length_le short,
      List.take_of_length_le (Nat.le_succ_of_le short)]

/-- The cursors of a page are the keys of its first and its last document, when every document
carries its key. -/
theorem boundaryCursors_eq {bindings : List (String × Document)}
    (identified : ∀ binding ∈ bindings, binding.2.IdentifiedBy binding.1) :
    boundaryCursors (bindings.map (·.2)) =
      .ok (bindings.head?.map fun binding => ⟨binding.1⟩,
        bindings.getLast?.map fun binding => ⟨binding.1⟩) := by
  have named : ∀ binding ∈ bindings, Document.cursor binding.2 = .ok ⟨binding.1⟩ := by
    intro binding inside
    exact (Document.cursor_eq_ok_iff _ _).mpr (identified binding inside)
  cases front : bindings.head? with
  | none =>
      rw [List.head?_eq_none_iff] at front
      subst front
      rfl
  | some first =>
      have firstInside : first ∈ bindings := List.mem_of_head? front
      obtain ⟨last, back⟩ : ∃ last, bindings.getLast? = some last := by
        cases back : bindings.getLast? with
        | some last => exact ⟨last, rfl⟩
        | none =>
            rw [List.getLast?_eq_none_iff] at back
            subst back
            cases firstInside
      have lastInside : last ∈ bindings := List.mem_of_getLast? back
      simp [boundaryCursors, front, back, named first firstInside, named last lastInside]

namespace Collection

variable {κ : Type} {memory : Memory} {name : String}

/-- The query of a page answers with the matches ahead and leaves the store as it is. -/
theorem fetch_query [KeySource] (conventional : (memory.shelf name).Conventional) (way : Way)
    (filter : Filter) (size : Nat) (cursor : Option Cursor) :
    (inMemory name).fetch (way.query filter size cursor) memory =
      (.ok ((((memory.shelf name).matchesAhead way filter cursor).map (·.2)).take
        (lookahead size)), memory) := by
  change (collectStream (((memory.shelf name).scan (way.query filter size cursor).filter
    (way.query filter size cursor).options.diskUseAllowed).map .ok), memory) = _
  rw [Shelf.scan_query conventional, collectStream_map_ok]

/-- The window that the matches ahead make is the page at the cursor, with its description. -/
theorem frame_matchesAhead (shelf : Shelf) (way : Way) (filter : Filter) {size : Nat}
    (below : size < sizeLimit) (cursor : Option Cursor) :
    way.frame size cursor
        (((shelf.matchesAhead way filter cursor).map (·.2)).take (lookahead size)) =
      ⟨(shelf.page way filter size cursor).map (·.2),
        (shelf.pageInfo way filter size cursor).hasNextPage,
        (shelf.pageInfo way filter size cursor).hasPreviousPage⟩ := by
  cases way with
  | forward =>
      simp [Way.frame, forwardWindow, trimmed_lookahead below, Shelf.page, Shelf.pageInfo,
        Way.arrange, List.map_take]
  | backward =>
      simp [Way.frame, backwardWindow, trimmed_lookahead below, Shelf.page, Shelf.pageInfo,
        Way.arrange, List.map_take, List.map_reverse]

/-- The window of a cursor request is the page at the cursor. -/
theorem cursorWindow_eq [KeySource] (conventional : (memory.shelf name).Conventional) (way : Way)
    (filter : Filter) (cursor : Option Cursor) {size : Int64} {count : Nat}
    (counted : size.toInt = count) (below : count < sizeLimit) :
    (inMemory name).cursorWindow filter (way.request size cursor) memory =
      (.ok ⟨((memory.shelf name).page way filter count cursor).map (·.2),
        ((memory.shelf name).pageInfo way filter count cursor).hasNextPage,
        ((memory.shelf name).pageInfo way filter count cursor).hasPreviousPage⟩, memory) := by
  have admitted : ∀ argument, nonNegative? argument (some size) = .ok (some count) := by
    intro argument
    have notNegative : ¬ size.toInt < 0 := by omega
    have natural : size.toInt.toNat = count := by omega
    simp [nonNegative?, nonNegative, notNegative, natural]
  have fetched := fetch_query conventional way filter count cursor
  rw [← frame_matchesAhead _ way filter below cursor]
  cases way with
  | forward =>
      simp only [Way.query] at fetched
      simp [cursorWindow, Way.request, CursorRequest.forward, admitted, fetchWindow, fetched,
        Way.frame]
  | backward =>
      simp only [Way.query] at fetched
      simp [cursorWindow, Way.request, CursorRequest.backward, admitted, fetchWindow, fetched,
        Way.frame]

/-- Every document on a page carries its key. -/
theorem identified_page {shelf : Shelf} (conventional : shelf.Conventional) (way : Way)
    (filter : Filter) (size : Nat) (cursor : Option Cursor) :
    ∀ binding ∈ shelf.page way filter size cursor, binding.2.IdentifiedBy binding.1 := by
  intro binding inside
  have taken := List.mem_of_mem_take ((way.mem_arrange_iff _ binding).mp inside)
  have listed := (List.mem_filter.mp ((way.mem_arrange_iff _ binding).mp taken)).1
  exact (conventional.matching filter).identified listed

/-- A cursor request delivers the page at the cursor to the consumer, answers with the description
of the page unless the consumer fails, and leaves the store as it is. -/
theorem paginate_cursor [KeySource] (conventional : (memory.shelf name).Conventional) (way : Way)
    (filter : Filter) (cursor : Option Cursor) {size : Int64} {count : Nat}
    (counted : size.toInt = count) (below : count < sizeLimit) (consumer : Consumer κ) (sink : κ) :
    (inMemory name).paginate filter (some (.cursor (way.request size cursor))) consumer
        (memory, sink) =
      match consumer.deliver (((memory.shelf name).page way filter count cursor).map (·.2)) sink
        with
      | (.error error, filled) => (.error error, (memory, filled))
      | (.ok (), filled) =>
          (.ok ((memory.shelf name).pageInfo way filter count cursor), (memory, filled)) := by
  have total : (inMemory name).count filter memory =
      (.ok ((memory.shelf name).count filter), memory) := rfl
  have windowed := cursorWindow_eq conventional way filter cursor counted below
  have boundary := boundaryCursors_eq
    (identified_page conventional way filter count cursor)
  simp only [paginate, total, window, windowed, boundary]
  rfl

end Collection

end DocStore
