import DocStore.Proofs.MatchCounts
import DocStore.Proofs.SortOrder

/-!
# Malformed records

A document whose identifier is no string is malformed: no scan can be resumed from it. Paging makes
cursors of the first and of the last document of a window and looks at no other. Main statement:
that is enough. A window that holds a malformed document is never delivered, not even in part, and
every document that a consumer is handed has a string as its identifier.

The reason is the order of sorts. Whichever way a window looks and wherever it is cut, the ranks of
its identifiers ascend, and strings have a rank of their own. So what lies between two strings is a
string. Without order there is no such reason, and a NaN has no place in the order; the identifier
must not be one.
-/

namespace DocStore

/-- Strings are the values of their rank. -/
theorem Value.rank_eq_two_iff (value : Value) : value.rank = 2 ↔ ∃ text, value = .string text := by
  cases value <;> simp [Value.rank, Value.scalar?, Value.isDocument]

/-- A value that a sort does not put behind another one has no greater rank. -/
theorem rank_le_of_ne_gt {left right : Option Value} (ordered : compareForSort left right ≠ .gt) :
    (left.getD .null).rank ≤ (right.getD .null).rank := by
  refine Nat.not_lt.mp fun above => ordered ?_
  simp only [compareForSort, Nat.compare_eq_gt.mpr above, Ordering.then]

/-- A value that a sort does not put before another one has no lower rank. -/
theorem rank_le_of_ne_lt {left right : Option Value} (ordered : compareForSort left right ≠ .lt) :
    (right.getD .null).rank ≤ (left.getD .null).rank := by
  refine Nat.not_lt.mp fun below => ordered ?_
  simp only [compareForSort, Nat.compare_eq_lt.mpr below, Ordering.then]

namespace Document

/-- The identifier is a string. -/
def Identified (document : Document) : Prop := ∃ identifier, document.IdentifiedBy identifier

/-- The rank of the identifier in the order of sorts. -/
def idRank (document : Document) : Nat := ((Document.field? document idField).getD .null).rank

/-- The identifier is a string exactly when it has the rank of strings. -/
theorem identified_iff (document : Document) : document.Identified ↔ document.idRank = 2 := by
  rw [idRank, Value.rank_eq_two_iff]
  cases found : Document.field? document idField with
  | none => simp [Identified, IdentifiedBy, found]
  | some value => simp [Identified, IdentifiedBy, found]

/-- A document with a string as its identifier has a cursor. -/
theorem Identified.cursor {document : Document} (identified : document.Identified) :
    ∃ cursor, Document.cursor document = .ok cursor := by
  obtain ⟨identifier, carried⟩ := identified
  exact ⟨⟨identifier⟩, (cursor_eq_ok_iff document ⟨identifier⟩).mpr carried⟩

/-- A document either is identified, or has no cursor for an internal cause. -/
theorem identified_or_internal (document : Document) :
    document.Identified ∨ ∃ cause, Document.cursor document = .error (.internal cause) := by
  cases found : Document.field? document idField with
  | none => exact .inr ⟨.cursorMissing, by simp only [Document.cursor, found]⟩
  | some value =>
      cases value with
      | string identifier => exact .inl ⟨identifier, found⟩
      | _ =>
          right
          simp only [Document.cursor, found]
          exact ⟨_, rfl⟩

end Document

/-- Between identified ends every document is identified, if the ranks ascend. -/
theorem identified_of_ends {documents : List Document} {first last : Document}
    (ascending : documents.Pairwise fun left right => left.idRank ≤ right.idRank)
    (starts : documents.head? = some first) (ends : documents.getLast? = some last)
    (firstIdentified : first.Identified) (lastIdentified : last.Identified) :
    ∀ document ∈ documents, document.Identified := by
  intro document inside
  have low : first.idRank ≤ document.idRank := by
    obtain ⟨rest, rfl⟩ := List.head?_eq_some_iff.mp starts
    rcases List.mem_cons.mp inside with rfl | later
    · exact Nat.le_refl _
    · exact (List.pairwise_cons.mp ascending).1 document later
  have high : document.idRank ≤ last.idRank := by
    obtain ⟨rest, rfl⟩ := List.getLast?_eq_some_iff.mp ends
    rcases List.mem_append.mp inside with earlier | here
    · obtain ⟨-, -, across⟩ := List.pairwise_append.mp ascending
      exact across document earlier last (List.mem_singleton.mpr rfl)
    · exact Nat.le_of_eq (congrArg Document.idRank (List.mem_singleton.mp here))
  rw [document.identified_iff]
  rw [first.identified_iff] at firstIdentified
  rw [last.identified_iff] at lastIdentified
  omega

/-- When the cursors of a page cannot be made, the cause is internal. -/
theorem internal_of_boundaryCursors {documents : List Document} {error : StoreError}
    (unmarked : boundaryCursors documents = .error error) : ∃ cause, error = .internal cause := by
  have of_cursor : ∀ document, Document.cursor document = .error error →
      ∃ cause, error = .internal cause := by
    intro document missed
    obtain identified | ⟨cause, internal⟩ := document.identified_or_internal
    · obtain ⟨cursor, made⟩ := identified.cursor
      cases made.symm.trans missed
    · cases internal.symm.trans missed
      exact ⟨cause, rfl⟩
  obtain ⟨first, last, -, -, firstMissed | ⟨-, lastMissed⟩⟩ :=
    (boundaryCursors_eq_error_iff documents error).mp unmarked
  · exact of_cursor first firstMissed
  · exact of_cursor last lastMissed

/-- When the cursors of a page can be made, its ends are identified. -/
theorem identified_of_boundaryCursors {documents : List Document} {first last : Document}
    {ends : Option Cursor × Option Cursor} (starts : documents.head? = some first)
    (stops : documents.getLast? = some last) (marked : boundaryCursors documents = .ok ends) :
    first.Identified ∧ last.Identified := by
  have no_error : ∀ error, boundaryCursors documents ≠ .error error := by
    intro error missed
    cases marked.symm.trans missed
  have firstIdentified : first.Identified := by
    obtain identified | ⟨cause, missed⟩ := first.identified_or_internal
    · exact identified
    · exact absurd ((boundaryCursors_eq_error_iff documents _).mpr
        ⟨first, last, starts, stops, .inl missed⟩) (no_error _)
  constructor
  · exact firstIdentified
  · obtain identified | ⟨cause, missed⟩ := last.identified_or_internal
    · exact identified
    · exact absurd ((boundaryCursors_eq_error_iff documents _).mpr
        ⟨first, last, starts, stops, .inr ⟨firstIdentified.cursor, missed⟩⟩) (no_error _)

/-- The cursors of a page whose ranks ascend can be made exactly when every document of it is
identified. -/
theorem boundaryCursors_eq_ok_iff {documents : List Document}
    (ascending : documents.Pairwise fun left right => left.idRank ≤ right.idRank) :
    (∃ ends, boundaryCursors documents = .ok ends) ↔
      ∀ document ∈ documents, document.Identified := by
  constructor
  · rintro ⟨ends, marked⟩
    cases documents with
    | nil => simp
    | cons first rest =>
        obtain ⟨firstIdentified, lastIdentified⟩ :=
          identified_of_boundaryCursors List.head?_cons List.getLast?_cons marked
        exact identified_of_ends ascending List.head?_cons List.getLast?_cons firstIdentified
          lastIdentified
  · intro identified
    cases made : boundaryCursors documents with
    | ok ends => exact ⟨ends, rfl⟩
    | error error =>
        obtain ⟨first, last, starts, stops, firstMissed | ⟨-, lastMissed⟩⟩ :=
          (boundaryCursors_eq_error_iff documents error).mp made
        · obtain ⟨cursor, found⟩ := (identified first (List.mem_of_head? starts)).cursor
          cases found.symm.trans firstMissed
        · obtain ⟨cursor, found⟩ := (identified last (List.mem_of_getLast? stops)).cursor
          cases found.symm.trans lastMissed

namespace Pagination

/-- No size is negative, and the request looks one way only. -/
def Admissible : Option Pagination → Prop
  | none => True
  | some (.offset request) => 0 ≤ request.offset.toInt ∧ 0 ≤ request.limit.toInt
  | some (.cursor request) =>
      (∀ size ∈ request.first, 0 ≤ size.toInt) ∧ (∀ size ∈ request.last, 0 ≤ size.toInt) ∧
        ¬ (request.looksForward = true ∧ request.looksBack = true)

/-- The requests that are not refused are the admissible ones. Of a window of cursors only the size
of its direction is looked at; the other one is absent then. -/
theorem refusal?_eq_none_iff (request : Option Pagination) :
    refusal? request = none ↔ Admissible request := by
  cases request with
  | none => simp [refusal?, Admissible]
  | some request =>
      cases request with
      | offset request => simp [refusal?, Admissible, negative?_eq_none_iff]
      | cursor request =>
          simp only [refusal?, Admissible, Bool.and_eq_true]
          by_cases back : request.looksBack = true
          · by_cases forward : request.looksForward = true
            · simp [back, forward]
            · obtain ⟨unsized, -⟩ : request.first = none ∧ request.after = none := by
                simpa [CursorRequest.looksForward] using forward
              simp [back, forward, unsized, negative?_eq_none_iff]
          · obtain ⟨unsized, -⟩ : request.last = none ∧ request.before = none := by
              simpa [CursorRequest.looksBack] using back
            simp [back, unsized, negative?_eq_none_iff]

end Pagination

namespace Shelf

/-- No document of a shelf has a NaN as its identifier. -/
def NoNaN (shelf : Shelf) : Prop :=
  ∀ key document, shelf.find? key = some document →
    ∀ value, Document.field? document idField = some value → ¬ value.IsNaN

/-- A sort by identifier compares the identifiers. -/
theorem sortValue_id (document : Document) :
    sortValue idField document = Document.field? document idField := by
  rw [sortValue, Document.reach_idField]
  cases Document.field? document idField <;> rfl

/-- Without a NaN a sort by identifier can compare all documents. -/
theorem NoNaN.sortable {shelf : Shelf} (proper : shelf.NoNaN) (direction : Direction) :
    ∀ key document, shelf.find? key = some document → Sortable ⟨idField, direction⟩ document := by
  intro key document stored
  rw [Sortable, sortValue_id]
  cases found : Document.field? document idField with
  | none =>
      rintro ⟨number, same, -⟩
      cases same
  | some value => exact proper key document stored value found

/-- From the lowest identifier to the highest the ranks ascend. -/
theorem ascending_scan {shelf : Shelf} (proper : shelf.NoNaN) (filter : Filter)
    {options : ScanOptions} (asked : options.sort = some ⟨idField, .ascending⟩) :
    (shelf.scan filter options).Pairwise fun left right => left.idRank ≤ right.idRank := by
  refine (pairwise_scan (proper.sortable _) filter asked).imp ?_
  intro left right ordered
  simp only [inOrder, sortValue_id, bne_iff_ne] at ordered
  exact rank_le_of_ne_gt ordered

/-- From the highest identifier to the lowest the ranks descend. -/
theorem descending_scan {shelf : Shelf} (proper : shelf.NoNaN) (filter : Filter)
    {options : ScanOptions} (asked : options.sort = some ⟨idField, .descending⟩) :
    (shelf.scan filter options).Pairwise fun left right => right.idRank ≤ left.idRank := by
  refine (pairwise_scan (proper.sortable _) filter asked).imp ?_
  intro left right ordered
  simp only [inOrder, sortValue_id, bne_iff_ne] at ordered
  exact rank_le_of_ne_lt ordered

/-- What is cut to a size stands as it stood. -/
theorem cutTo_sublist (size : Option Nat) (documents : List Document) :
    (cutTo size documents).Sublist documents := by
  cases size with
  | none => exact List.Sublist.refl documents
  | some bound => exact List.take_sublist bound documents

/-- The ranks of a page ascend, whichever way its window looks and wherever it is cut. -/
theorem ascending_kept {shelf : Shelf} (proper : shelf.NoNaN) (filter : Filter)
    (request : Option Pagination) :
    (Pagination.kept request (shelf.fetched filter request)).Pairwise
      fun left right => left.idRank ≤ right.idRank := by
  cases request with
  | none =>
      simp only [Pagination.kept, fetched, Pagination.query?]
      exact ascending_scan proper filter rfl
  | some request =>
      cases request with
      | offset request =>
          simp only [Pagination.kept, fetched, Pagination.query?]
          by_cases nothing : magnitude request.limit = 0
          · simp only [if_pos nothing]
            exact List.Pairwise.nil
          · simp only [if_neg nothing]
            exact ascending_scan proper _ rfl
      | cursor request =>
          simp only [Pagination.kept, fetched, Pagination.query?]
          by_cases back : request.looksBack = true
          · simp only [if_pos back]
            exact List.pairwise_reverse.mpr
              ((descending_scan proper _ rfl).sublist (cutTo_sublist _ _))
          · simp only [if_neg back]
            exact (ascending_scan proper _ rfl).sublist (cutTo_sublist _ _)

end Shelf

namespace Flow

/-- In a call that takes a document the consumer was handed one of those that it takes. -/
theorem mem_of_mem_taking {documents : List Document} {exchange : Exchange}
    (called : exchange ∈ taking documents) {document : Document}
    (handed : exchange.received = some document) : document ∈ documents := by
  obtain ⟨taken, inside, rfl⟩ := List.mem_map.mp called
  cases handed
  exact inside

/-- A consumer is handed documents of the stream only. -/
theorem mem_of_received {documents : List Document} {log : List Exchange}
    {result : Except StoreError Unit} (flow : Flow (documents.map .ok) log result)
    {exchange : Exchange} (called : exchange ∈ log) {document : Document}
    (handed : exchange.received = some document) : document ∈ documents := by
  suffices streamed : (.ok document : Except StoreError Document) ∈ documents.map .ok by
    obtain ⟨other, inside, same⟩ := List.mem_map.mp streamed
    cases same
    exact inside
  cases flow with
  | exhausted taken answer whole =>
      rw [whole]
      rcases List.mem_append.mp called with took | told
      · exact List.mem_map_of_mem (mem_of_mem_taking took handed)
      · rw [List.mem_singleton.mp told] at handed
        cases handed
  | broken taken error rest breaks =>
      rw [breaks]
      exact List.mem_append_left _ (List.mem_map_of_mem (mem_of_mem_taking called handed))
  | refused taken last error rest stops =>
      rw [stops]
      rcases List.mem_append.mp called with took | objected
      · exact List.mem_append_left _ (List.mem_map_of_mem (mem_of_mem_taking took handed))
      · rw [List.mem_singleton.mp objected] at handed
        cases handed
        exact List.mem_append_right _ List.mem_cons_self

end Flow

namespace Collection

/-- A window that holds a malformed document is not delivered, and a consumer is never handed one.

For every state of a collection in which no identifier is a NaN, every filter and every admissible
request the matches are counted and a window is fetched. If the identifier of any document in it is
no string, paging answers with an internal error and does not call the consumer. Otherwise the
answer is what the delivery of the window comes to. So whatever a consumer is handed in the course
of paging is a document of the window with a string as its identifier, whether paging succeeds or
not. -/
theorem malformed_records_are_not_delivered [KeySource] (memory : Memory) (name : String)
    (filter : Filter) {request : Option Pagination} (admissible : Pagination.Admissible request)
    (proper : (memory.shelf name).NoNaN) :
    ∃ (total : Nat) (window : Window),
      (inMemory name).count filter memory = (.ok total, memory) ∧
      (inMemory name).window filter request total memory = (.ok window, memory) ∧
      ∀ (κ : Type) (consumer : Consumer κ) (sink : κ),
        ∃ (answer : Except StoreError PageInfo) (filled : κ) (log : List Exchange),
          (inMemory name).paginate filter request consumer (memory, sink) =
            (answer, (memory, filled)) ∧
          (inMemory name).paginate filter request consumer.logged (memory, (sink, [])) =
            (answer, (memory, (filled, log))) ∧
          ((∃ document ∈ window.documents, ¬ document.Identified) →
            (∃ cause, answer = .error (.internal cause)) ∧ filled = sink ∧ log = []) ∧
          ((∀ document ∈ window.documents, document.Identified) →
            ∃ (result : Except StoreError Unit) (start stop : Option Cursor),
              consumer.deliver window.documents sink = (result, filled) ∧
              answer = result.map fun _ =>
                ⟨total, start, stop, window.hasNext, window.hasPrevious⟩) ∧
          ∀ exchange ∈ log, ∀ document, exchange.received = some document →
            document ∈ window.documents ∧ document.Identified := by
  have allowed := (Pagination.refusal?_eq_none_iff request).mpr admissible
  have counted : (inMemory name).count filter memory =
      (.ok ((memory.shelf name).count filter), memory) := rfl
  have had := window_inMemory memory name filter allowed ((memory.shelf name).count filter)
  refine ⟨_, _, counted, had, ?_⟩
  intro κ consumer sink
  have ascending := Shelf.ascending_kept proper filter request
  have marked_iff := boundaryCursors_eq_ok_iff ascending
  rw [paginate_of_window counted had, paginate_of_window counted had, Pagination.documents_frame]
  generalize Pagination.kept request ((memory.shelf name).fetched filter request) = documents
    at marked_iff
  cases made : boundaryCursors documents with
  | error error =>
      obtain ⟨cause, rfl⟩ := internal_of_boundaryCursors made
      refine ⟨_, sink, [], rfl, rfl, fun _ => ⟨⟨cause, rfl⟩, rfl, rfl⟩, ?_, ?_⟩
      · intro identified
        obtain ⟨ends, marked⟩ := marked_iff.mpr identified
        cases made.symm.trans marked
      · intro exchange called
        cases called
  | ok ends =>
      obtain ⟨start, stop⟩ := ends
      have identified := marked_iff.mp ⟨_, made⟩
      obtain ⟨result, filled, log, drained, drainedLogged, flow⟩ :=
        consumer.drain_logged (documents.map .ok) sink []
      rw [List.nil_append] at drainedLogged
      simp only [drained, drainedLogged]
      refine ⟨_, filled, log, rfl, rfl, ?_, fun _ => ⟨result, start, stop, drained, rfl⟩, ?_⟩
      · rintro ⟨document, inside, malformed⟩
        exact absurd (identified document inside) malformed
      · intro exchange called document handed
        have inside := flow.mem_of_received called handed
        exact ⟨inside, identified document inside⟩

/-- A list of texts is below "b" as soon as one of them is. Looking back from there the window holds
the list, behind a document with a string as its identifier, and is not delivered. Looking forward
from "a" the malformed documents are no matches, and the page is delivered. -/
theorem malformed_records_are_not_delivered_of_list :
    ∃ memory, Memory.seeded [("items", [("id", .string "a")]), ("items", [("id", .string "b")]),
        ("items", [("id", .array [.string "0"])]), ("items", [("n", .int32 1)])] = .ok memory ∧
      (∃ cause, (inMemory "items").paginate Filter.everything
          (some (.cursor (.backward 5 (some ⟨"b"⟩)))) (Consumer.recorder none) (memory, []) =
        (.error (.internal cause), (memory, []))) ∧
      ∃ info, (inMemory "items").paginate Filter.everything
          (some (.cursor (.forward 1 (some ⟨"a"⟩)))) (Consumer.recorder none) (memory, []) =
        (.ok info, (memory, [some [("id", .string "b")], none])) := by
  obtain ⟨memory, built⟩ : ∃ memory, Memory.seeded [("items", [("id", .string "a")]),
      ("items", [("id", .string "b")]), ("items", [("id", .array [.string "0"])]),
      ("items", [("n", .int32 1)])] = .ok memory := ⟨_, rfl⟩
  have proper : (memory.shelf "items").NoNaN := by
    refine Memory.each_seedAll (fun _ => Table.each_empty) ?_ built "items"
    rintro seed listed shelf value found ⟨number, rfl, -⟩
    simp only [List.mem_cons, List.not_mem_nil, or_false] at listed
    rcases listed with rfl | rfl | rfl | rfl <;> cases found
  have back : (memory.shelf "items").fetched Filter.everything
      (some (.cursor (.backward 5 (some ⟨"b"⟩)))) =
        [[("id", .array [.string "0"])], [("id", .string "a")]] := by
    have sorted : Shelf.sorted (some ⟨idField, .descending⟩)
        [[("id", .array [.string "0"])], [("id", .string "a")]] =
          [[("id", .array [.string "0"])], [("id", .string "a")]] :=
      List.mergeSort_of_pairwise (List.pairwise_pair.mpr rfl)
    cases built
    exact congrArg (Shelf.window none (some 6)) sorted
  have ahead : (memory.shelf "items").fetched Filter.everything
      (some (.cursor (.forward 1 (some ⟨"a"⟩)))) = [[("id", .string "b")]] := by
    have sorted : Shelf.sorted (some ⟨idField, .ascending⟩) [[("id", .string "b")]] =
        [[("id", .string "b")]] := List.mergeSort_singleton _
    cases built
    exact congrArg (Shelf.window none (some 2)) sorted
  refine ⟨memory, built, ?_, ?_⟩
  · obtain ⟨total, window, -, had, paged⟩ := malformed_records_are_not_delivered memory "items"
      Filter.everything ((Pagination.refusal?_eq_none_iff
        (some (.cursor (.backward 5 (some ⟨"b"⟩))))).mp rfl) proper
    rw [window_inMemory _ _ _ rfl, back] at had
    cases had
    obtain ⟨answer, filled, log, answered, -, refused, -⟩ := paged _ (Consumer.recorder none) []
    obtain ⟨⟨cause, rfl⟩, rfl, -⟩ := refused ⟨[("id", .array [.string "0"])],
      List.mem_cons_of_mem _ List.mem_cons_self, by rintro ⟨identifier, carried⟩; cases carried⟩
    exact ⟨cause, answered⟩
  · obtain ⟨total, window, -, had, paged⟩ := malformed_records_are_not_delivered memory "items"
      Filter.everything ((Pagination.refusal?_eq_none_iff
        (some (.cursor (.forward 1 (some ⟨"a"⟩))))).mp rfl) proper
    rw [window_inMemory _ _ _ rfl, ahead] at had
    cases had
    obtain ⟨answer, filled, log, answered, -, -, taken, -⟩ := paged _ (Consumer.recorder none) []
    obtain ⟨result, start, stop, delivered, rfl⟩ := taken fun document inside =>
      ⟨"b", by rw [List.mem_singleton.mp inside]; rfl⟩
    cases delivered
    exact ⟨_, answered⟩

end Collection

end DocStore
