import DocStore.Collection.Paginate
import DocStore.Proofs.Streaming
import DocStore.Script

/-!
# The calls behind a page

What paging calls, in which order, and what becomes of each answer. The backend is asked for the
number of matches, then the arguments are checked, then the documents are fetched to the last one
and the cursors of the page are made. Only after all that is the consumer called, and from there on
a page flows as the results of a query do.

Main statement: paging takes one of five courses, for every backend and every consumer. In the four
courses that fail before the page is complete the consumer is not called, and each presupposes that
the steps before it went well. So a failure either is the consumer's own answer, or nothing was
delivered.

A window of cursors asks for one document too many and is cut. A window by position is not: a
backend that yields more than it is asked for has all of it delivered.
-/

namespace DocStore

variable {σ κ α : Type}

/-- The same action, with its call added to a log. -/
def Action.recorded (call : Call) (action : Action σ α) : Action (σ × List Call) α :=
  fun (state, calls) =>
    match action state with
    | (answer, next) => (answer, (next, calls ++ [call]))

/-- A recorded action answers as the action does. -/
theorem Action.recorded_eq {call : Call} {action : Action σ α} {state next : σ}
    {answer : Except StoreError α} (answered : action state = (answer, next))
    (calls : List Call) :
    Action.recorded call action (state, calls) = (answer, (next, calls ++ [call])) := by
  simp only [recorded, answered]

/-- The same backend, with a log of its calls. -/
def Backend.logged (backend : Backend σ) : Backend (σ × List Call) where
  find name filter options :=
    Action.recorded (.find name filter options) (backend.find name filter options)
  findOne name filter options :=
    Action.recorded (.findOne name filter options) (backend.findOne name filter options)
  count name filter := Action.recorded (.count name filter) (backend.count name filter)
  deleteMany name filter :=
    Action.recorded (.deleteMany name filter) (backend.deleteMany name filter)
  deleteOne name filter :=
    Action.recorded (.deleteOne name filter) (backend.deleteOne name filter)
  replaceOne name filter replacement upsert :=
    Action.recorded (.replaceOne name filter replacement upsert)
      (backend.replaceOne name filter replacement upsert)
  updateOne name filter changes upsert :=
    Action.recorded (.updateOne name filter changes upsert)
      (backend.updateOne name filter changes upsert)
  updateMany name filter changes scopes :=
    Action.recorded (.updateMany name filter changes scopes)
      (backend.updateMany name filter changes scopes)
  bulkWrite name writes := Action.recorded (.bulkWrite name writes) (backend.bulkWrite name writes)
  dropCollection name := Action.recorded (.dropCollection name) (backend.dropCollection name)
  shutdown := Action.recorded .shutdown backend.shutdown

/-- The same collection, with a log of the calls of its backend. -/
def Collection.logged (collection : Collection σ) : Collection (σ × List Call) :=
  ⟨collection.name, collection.backend.logged⟩

namespace CursorRequest

/-- True when an argument of a forward window is given. -/
def looksForward (request : CursorRequest) : Bool :=
  request.first.isSome || request.after.isSome

/-- True when an argument of a backward window is given. -/
def looksBack (request : CursorRequest) : Bool :=
  request.last.isSome || request.before.isSome

end CursorRequest

/-- The number that a size stands for once it is known not to be negative. -/
def magnitude (size : Int64) : Nat := size.toInt.toNat

/-- The refusal of a negative size; the name says which size is meant. -/
def negative? (name : String) (size : Int64) : Option Refusal :=
  if size.toInt < 0 then some (.negative name) else none

/-- A size is not refused unless it is negative. -/
theorem negative?_eq_none_iff (name : String) (size : Int64) :
    negative? name size = none ↔ 0 ≤ size.toInt := by
  simp [negative?]

/-- A size is read as a number unless it is refused. -/
theorem nonNegative_eq_refused (name : String) (size : Int64) :
    nonNegative name size =
      match negative? name size with
      | some refusal => .error (.invalidParams refusal)
      | none => .ok (magnitude size) := by
  by_cases below : size.toInt < 0
  · simp [nonNegative, negative?, below]
  · simp [nonNegative, negative?, magnitude, below]

/-- The same for a size that may be absent. -/
theorem nonNegative?_eq_refused (name : String) (size : Option Int64) :
    nonNegative? name size =
      match size.bind (negative? name) with
      | some refusal => .error (.invalidParams refusal)
      | none => .ok (size.map magnitude) := by
  cases size with
  | none => rfl
  | some size =>
      simp only [nonNegative?, nonNegative_eq_refused, Option.bind_some, Option.map_some]
      cases negative? name size <;> rfl

/-- Documents cut to a size, if one is given. -/
def cutTo : Option Nat → List Document → List Document
  | some size, documents => documents.take size
  | none, documents => documents

/-- Trimming cuts to the size. -/
theorem trimmed_fst (size : Option Nat) (documents : List Document) :
    (trimmed size documents).1 = cutTo size documents := by
  cases size with
  | none => rfl
  | some bound =>
      by_cases longer : bound < documents.length
      · simp [trimmed, cutTo, longer]
      · have whole : documents.take bound = documents := List.take_of_length_le (by omega)
        simp [trimmed, cutTo, longer, whole]

namespace Pagination

/-- Why the arguments of a request are refused, if they are. -/
def refusal? : Option Pagination → Option Refusal
  | none => none
  | some (.offset request) =>
      (negative? "offset" request.offset).or (negative? "limit" request.limit)
  | some (.cursor request) =>
      if request.looksForward && request.looksBack then some .mixedDirections
      else if request.looksBack then request.last.bind (negative? "last")
      else request.first.bind (negative? "first")

/-- The query of a request. A limit of zero needs none. -/
def query? (filter : Filter) : Option Pagination → Option WindowQuery
  | none => some ⟨filter, ScanOptions.byId⟩
  | some (.offset request) =>
      if magnitude request.limit = 0 then none
      else
        some ⟨filter, { ScanOptions.byId with
          skip := some (magnitude request.offset), limit := some (magnitude request.limit) }⟩
  | some (.cursor request) =>
      if request.looksBack then
        some (backwardQuery filter (request.last.map magnitude) request.before)
      else some (forwardQuery filter (request.first.map magnitude) request.after)

/-- The documents that a request keeps of those that were fetched for it, in the order of their
delivery. A window of cursors is cut to its size and a backward one turned round; a window by
position is kept as it was fetched. -/
def kept : Option Pagination → List Document → List Document
  | some (.cursor request), documents =>
      if request.looksBack then (cutTo (request.last.map magnitude) documents).reverse
      else cutTo (request.first.map magnitude) documents
  | _, documents => documents

/-- The window that a request makes of the documents that were fetched for it. -/
def frame (total : Nat) : Option Pagination → List Document → Window
  | none, documents => ⟨documents, false, false⟩
  | some (.offset request), documents =>
      ⟨documents, decide (magnitude request.offset + documents.length < total),
        decide (0 < magnitude request.offset)⟩
  | some (.cursor request), documents =>
      if request.looksBack then backwardWindow (request.last.map magnitude) request.before documents
      else forwardWindow (request.first.map magnitude) request.after documents

/-- The documents of a window are those that the request keeps. -/
theorem documents_frame (total : Nat) (request : Option Pagination) (documents : List Document) :
    (frame total request documents).documents = kept request documents := by
  cases request with
  | none => rfl
  | some request =>
      cases request with
      | offset request => rfl
      | cursor request =>
          simp only [frame, kept, backwardWindow, forwardWindow]
          split
          · rw [← trimmed_fst]
          · rw [← trimmed_fst]

end Pagination

namespace Collection

/-- A window is had in three steps: the arguments are checked, a query is made, and what it yields
is framed. -/
theorem window_eq (collection : Collection σ) (filter : Filter) (request : Option Pagination)
    (total : Nat) (state : σ) :
    collection.window filter request total state =
      match Pagination.refusal? request with
      | some refusal => (.error (.invalidParams refusal), state)
      | none =>
          match Pagination.query? filter request with
          | none => (.ok (Pagination.frame total request []), state)
          | some query => collection.fetchWindow query (Pagination.frame total request) state := by
  cases request with
  | none => rfl
  | some request =>
      cases request with
      | offset request =>
          simp only [window, offsetWindow, nonNegative_eq_refused, Pagination.refusal?,
            Pagination.query?]
          cases negative? "offset" request.offset with
          | some refusal => rfl
          | none =>
              cases negative? "limit" request.limit with
              | some refusal => rfl
              | none =>
                  by_cases zero : magnitude request.limit = 0
                  · simp only [if_pos zero]
                    rfl
                  · simp only [if_neg zero]
                    rfl
      | cursor request =>
          simp only [window, cursorWindow, Pagination.refusal?, Pagination.query?,
            nonNegative?_eq_refused]
          -- the two Booleans of the window, by their names
          change (if (request.looksForward && request.looksBack) = true then _
            else if request.looksBack = true then _ else _) = _
          by_cases mixed : (request.looksForward && request.looksBack) = true
          · simp only [if_pos mixed]
          · by_cases back : request.looksBack = true
            · have framed : Pagination.frame total (some (.cursor request)) =
                  backwardWindow (request.last.map magnitude) request.before := by
                funext documents
                simp only [Pagination.frame, if_pos back]
              simp only [if_neg mixed, if_pos back, framed]
              cases request.last.bind (negative? "last") <;> rfl
            · have framed : Pagination.frame total (some (.cursor request)) =
                  forwardWindow (request.first.map magnitude) request.after := by
                funext documents
                simp only [Pagination.frame, if_neg back]
              simp only [if_neg mixed, if_neg back, framed]
              cases request.first.bind (negative? "first") <;> rfl

end Collection

/-- A stream either has no error, and all its documents are collected, or breaks at its first error
and yields nothing else. -/
theorem collectStream_cases (stream : DocumentStream) :
    (∃ documents : List Document,
        stream = documents.map .ok ∧ collectStream stream = .ok documents) ∨
      ∃ (documents : List Document) (error : StoreError) (rest : DocumentStream),
        stream = documents.map .ok ++ .error error :: rest ∧
          collectStream stream = .error error := by
  induction stream with
  | nil => exact .inl ⟨[], rfl, rfl⟩
  | cons item stream ih =>
      cases item with
      | error error => exact .inr ⟨[], error, stream, rfl, rfl⟩
      | ok document =>
          obtain ⟨documents, whole, collected⟩ | ⟨documents, error, rest, breaks, collected⟩ := ih
          · exact .inl ⟨document :: documents, by rw [whole]; rfl, by
              simp only [collectStream, collected]⟩
          · exact .inr ⟨document :: documents, error, rest, by rw [breaks]; rfl, by
              simp only [collectStream, collected]⟩

/-- The cursors of a page cannot be made exactly when its first document has none or, after that,
its last one has none. -/
theorem boundaryCursors_eq_error_iff (documents : List Document) (error : StoreError) :
    boundaryCursors documents = .error error ↔
      ∃ first last, documents.head? = some first ∧ documents.getLast? = some last ∧
        (Document.cursor first = .error error ∨
          (∃ start, Document.cursor first = .ok start) ∧ Document.cursor last = .error error) := by
  cases documents with
  | nil => simp [boundaryCursors]
  | cons first rest =>
      obtain ⟨last, ended⟩ : ∃ last, (first :: rest).getLast? = some last :=
        ⟨_, List.getLast?_cons⟩
      simp only [boundaryCursors, List.head?_cons, ended, Option.some.injEq, exists_eq_left',
        exists_and_left]
      cases Document.cursor first with
      | error other => simp
      | ok start => cases Document.cursor last <;> simp

/-- Opens the query of a window. -/
def Collection.opens (collection : Collection σ) (query : WindowQuery) : Action σ DocumentStream :=
  collection.backend.find collection.name query.filter query.options.diskUseAllowed

/-- The call that opens the query of a window. -/
def Collection.opening (collection : Collection σ) (query : WindowQuery) : Call :=
  .find collection.name query.filter query.options.diskUseAllowed

/-- How the documents of a page are fetched: the calls of the backend, what they come to, and the
next state. -/
inductive Fetch (collection : Collection σ) (filter : Filter) (request : Option Pagination)
    (state : σ) : List Call → Except StoreError (List Document) → σ → Prop where
  /-- No documents are asked for, and the backend is not called. -/
  | unasked (nothing : Pagination.query? filter request = none) :
      Fetch collection filter request state [] (.ok []) state
  /-- The query is not opened. -/
  | unopened (query : WindowQuery) (error : StoreError) (next : σ)
      (asked : Pagination.query? filter request = some query)
      (failed : collection.opens query state = (.error error, next)) :
      Fetch collection filter request state [collection.opening query] (.error error) next
  /-- The stream breaks, after any number of documents. -/
  | broken (query : WindowQuery) (documents : List Document) (error : StoreError)
      (rest : DocumentStream) (next : σ)
      (asked : Pagination.query? filter request = some query)
      (opened : collection.opens query state =
        (.ok (documents.map .ok ++ .error error :: rest), next)) :
      Fetch collection filter request state [collection.opening query] (.error error) next
  /-- The stream is exhausted. -/
  | whole (query : WindowQuery) (documents : List Document) (next : σ)
      (asked : Pagination.query? filter request = some query)
      (opened : collection.opens query state = (.ok (documents.map .ok), next)) :
      Fetch collection filter request state [collection.opening query] (.ok documents) next

/-- The course of paging: the calls of the backend, those of the consumer, the outcome and the next
state of the backend. -/
inductive PageFlow (collection : Collection σ) (filter : Filter) (request : Option Pagination)
    (state : σ) : List Call → List Exchange → Except StoreError PageInfo → σ → Prop where
  /-- The matches are not counted. -/
  | uncounted (error : StoreError) (next : σ)
      (failed : collection.count filter state = (.error error, next)) :
      PageFlow collection filter request state [.count collection.name filter] [] (.error error)
        next
  /-- The arguments are refused. -/
  | refused (total : Nat) (refusal : Refusal) (counted : σ)
      (count : collection.count filter state = (.ok total, counted))
      (refused : Pagination.refusal? request = some refusal) :
      PageFlow collection filter request state [.count collection.name filter] []
        (.error (.invalidParams refusal)) counted
  /-- The documents are not fetched. -/
  | unfetched (total : Nat) (calls : List Call) (error : StoreError) (counted next : σ)
      (count : collection.count filter state = (.ok total, counted))
      (allowed : Pagination.refusal? request = none)
      (fetch : Fetch collection filter request counted calls (.error error) next) :
      PageFlow collection filter request state (.count collection.name filter :: calls) []
        (.error error) next
  /-- The first or the last document has no cursor. -/
  | unmarked (total : Nat) (calls : List Call) (documents : List Document) (error : StoreError)
      (first last : Document) (counted next : σ)
      (count : collection.count filter state = (.ok total, counted))
      (allowed : Pagination.refusal? request = none)
      (fetch : Fetch collection filter request counted calls (.ok documents) next)
      (starts : (Pagination.kept request documents).head? = some first)
      (ends : (Pagination.kept request documents).getLast? = some last)
      (cursors : Document.cursor first = .error error ∨
        (∃ start, Document.cursor first = .ok start) ∧ Document.cursor last = .error error) :
      PageFlow collection filter request state (.count collection.name filter :: calls) []
        (.error error) next
  /-- The page flows into the consumer. -/
  | delivered (total : Nat) (calls : List Call) (documents : List Document)
      (start stop : Option Cursor) (log : List Exchange) (result : Except StoreError Unit)
      (counted next : σ)
      (count : collection.count filter state = (.ok total, counted))
      (allowed : Pagination.refusal? request = none)
      (fetch : Fetch collection filter request counted calls (.ok documents) next)
      (cursors : boundaryCursors (Pagination.kept request documents) = .ok (start, stop))
      (flow : Flow ((Pagination.kept request documents).map .ok) log result) :
      PageFlow collection filter request state (.count collection.name filter :: calls) log
        (result.map fun _ =>
          ⟨total, start, stop, (Pagination.frame total request documents).hasNext,
            (Pagination.frame total request documents).hasPrevious⟩)
        next

namespace Collection

variable {collection : Collection σ} {filter : Filter} {request : Option Pagination}

/-- A fetch collects the stream of its query. -/
theorem fetch_eq (collection : Collection σ) (query : WindowQuery) (state : σ) :
    collection.fetch query state =
      match collection.opens query state with
      | (.error error, next) => (.error error, next)
      | (.ok stream, next) => (collectStream stream, next) := rfl

/-- A recorded fetch answers as the fetch does, and is one call of the backend. -/
theorem fetch_recorded {query : WindowQuery} {state next : σ}
    {answer : Except StoreError (List Document)}
    (fetched : collection.fetch query state = (answer, next)) (calls : List Call) :
    collection.logged.fetch query (state, calls) =
      (answer, (next, calls ++ [collection.opening query])) := by
  cases found : collection.opens query state with
  | mk opened after =>
      have recorded : collection.logged.opens query (state, calls) =
          (opened, (after, calls ++ [collection.opening query])) := Action.recorded_eq found calls
      simp only [fetch_eq, found] at fetched
      simp only [fetch_eq, recorded]
      cases opened <;> (cases fetched; rfl)

/-- What a query yields is fetched in one of the ways of a fetch. -/
theorem fetch_course {query : WindowQuery} (asked : Pagination.query? filter request = some query)
    (state : σ) :
    ∃ (answer : Except StoreError (List Document)) (next : σ),
      collection.fetch query state = (answer, next) ∧
        Fetch collection filter request state [collection.opening query] answer next := by
  cases found : collection.opens query state with
  | mk opened next =>
      cases opened with
      | error error =>
          exact ⟨.error error, next, by simp only [fetch_eq, found],
            .unopened query error next asked found⟩
      | ok stream =>
          obtain ⟨documents, whole, collected⟩ | ⟨documents, error, rest, breaks, collected⟩ :=
            collectStream_cases stream
          · exact ⟨.ok documents, next, by simp only [fetch_eq, found, collected],
              .whole query documents next asked (by rw [found, whole])⟩
          · exact ⟨.error error, next, by simp only [fetch_eq, found, collected],
              .broken query documents error rest next asked (by rw [found, breaks])⟩

/-- The window of a request that is allowed is what a fetch comes to, framed. -/
theorem window_course (allowed : Pagination.refusal? request = none) (total : Nat) (state : σ)
    (before : List Call) :
    ∃ (calls : List Call) (answer : Except StoreError (List Document)) (next : σ),
      collection.window filter request total state =
        (answer.map (Pagination.frame total request), next) ∧
      collection.logged.window filter request total (state, before) =
        (answer.map (Pagination.frame total request), (next, before ++ calls)) ∧
      Fetch collection filter request state calls answer next := by
  simp only [window_eq, allowed]
  cases asked : Pagination.query? filter request with
  | none => exact ⟨[], .ok [], state, rfl, by simp [Except.map], .unasked asked⟩
  | some query =>
      obtain ⟨answer, next, fetched, course⟩ := fetch_course asked state
      refine ⟨_, answer, next, ?_, ?_, course⟩
      · simp only [fetchWindow, fetched]
        cases answer <;> rfl
      · simp only [fetchWindow, fetch_recorded fetched]
        cases answer <;> rfl

end Collection

/-- What an answer makes of a query is an error exactly when the answer is one other than the
end-of-stream signal. -/
theorem outcome_eq_error_iff (answer : Except StoreError Unit) (error : StoreError) :
    outcome answer = .error error ↔ answer = .error error ∧ error ≠ .endOfStream := by
  cases answer with
  | ok _ => simp [outcome]
  | error other => cases other <;> cases error <;> simp [outcome]

/-- When documents flow into a consumer, only its last answer can make the outcome an error. -/
theorem Flow.last_of_error {documents : List Document} {log : List Exchange}
    {result : Except StoreError Unit} {error : StoreError}
    (flow : Flow (documents.map .ok) log result) (failed : result = .error error) :
    ∃ received, log.getLast? = some ⟨received, .error error⟩ := by
  cases flow with
  | exhausted taken answer whole =>
      obtain ⟨rfl, _⟩ := (outcome_eq_error_iff answer error).mp failed
      exact ⟨none, List.getLast?_concat⟩
  | broken taken other rest breaks =>
      have inside : (.error other : Except StoreError Document) ∈ documents.map .ok := by
        simp [breaks]
      obtain ⟨document, _, same⟩ := List.mem_map.mp inside
      cases same
  | refused taken document other rest stops =>
      obtain ⟨same, _⟩ := (outcome_eq_error_iff _ error).mp failed
      cases same
      exact ⟨some document, List.getLast?_concat⟩

namespace Collection

variable {collection : Collection σ} {filter : Filter} {request : Option Pagination}
  {consumer : Consumer κ} {state counted next : σ} {total : Nat}

/-- Without a window nothing is delivered. -/
theorem paginate_of_no_window {error : StoreError}
    (count : collection.count filter state = (.ok total, counted))
    (missed : collection.window filter request total counted = (.error error, next)) (sink : κ) :
    collection.paginate filter request consumer (state, sink) = (.error error, (next, sink)) := by
  simp only [paginate, count, missed]

/-- A window is delivered when its cursors can be made. -/
theorem paginate_of_window {documents : List Document}
    (count : collection.count filter state = (.ok total, counted))
    (had : collection.window filter request total counted =
      (.ok (Pagination.frame total request documents), next)) (sink : κ) :
    collection.paginate filter request consumer (state, sink) =
      match boundaryCursors (Pagination.kept request documents) with
      | .error error => (.error error, (next, sink))
      | .ok (start, stop) =>
          match consumer.drain ((Pagination.kept request documents).map .ok) sink with
          | (result, filled) =>
              (result.map fun _ =>
                ⟨total, start, stop, (Pagination.frame total request documents).hasNext,
                  (Pagination.frame total request documents).hasPrevious⟩, (next, filled)) := by
  simp only [paginate, count, had, Pagination.documents_frame, Consumer.deliver]
  cases boundaryCursors (Pagination.kept request documents) with
  | error error => rfl
  | ok ends =>
      cases consumer.drain ((Pagination.kept request documents).map .ok) sink with
      | mk result filled => cases result <;> rfl

/-- Paging takes one of its courses, for every backend and every consumer in any state. When it
fails, either the consumer was not called and is as it was, or the error is what the consumer
answered to its last call. -/
theorem paginate_flow (collection : Collection σ) (filter : Filter) (request : Option Pagination)
    (consumer : Consumer κ) (state : σ) (sink : κ) :
    ∃ (calls : List Call) (log : List Exchange) (result : Except StoreError PageInfo) (next : σ)
      (filled : κ),
      collection.paginate filter request consumer (state, sink) = (result, (next, filled)) ∧
      collection.logged.paginate filter request consumer.logged ((state, []), (sink, [])) =
        (result, ((next, calls), (filled, log))) ∧
      PageFlow collection filter request state calls log result next ∧
      ∀ error, result = .error error →
        (log = [] ∧ filled = sink) ∨ ∃ received, log.getLast? = some ⟨received, .error error⟩ := by
  -- The cases follow the steps of paging; in each, the run with logs takes the course of the run
  -- without them.
  cases asked : collection.count filter state with
  | mk answer counted =>
      have recorded : collection.logged.count filter (state, []) =
          (answer, (counted, [.count collection.name filter])) := Action.recorded_eq asked []
      cases answer with
      | error error =>
          refine ⟨_, [], .error error, counted, sink, ?_, ?_, .uncounted error counted asked,
            fun _ _ => .inl ⟨rfl, rfl⟩⟩
          · simp only [paginate, asked]
          · simp only [paginate, recorded]
      | ok total =>
          cases checked : Pagination.refusal? request with
          | some refusal =>
              refine ⟨_, [], _, counted, sink, paginate_of_no_window asked ?_ sink,
                paginate_of_no_window recorded ?_ (sink, []),
                .refused total refusal counted asked checked, fun _ _ => .inl ⟨rfl, rfl⟩⟩
              · simp only [window_eq, checked]
              · simp only [window_eq, checked]
          | none =>
              obtain ⟨calls, answer, next, had, logged, course⟩ :=
                window_course checked total counted [.count collection.name filter]
              cases answer with
              | error error =>
                  exact ⟨_, [], .error error, next, sink, paginate_of_no_window asked had sink,
                    paginate_of_no_window recorded logged (sink, []),
                    .unfetched total calls error counted next asked checked course,
                    fun _ _ => .inl ⟨rfl, rfl⟩⟩
              | ok documents =>
                  rw [paginate_of_window asked had, paginate_of_window recorded logged]
                  cases cursors : boundaryCursors (Pagination.kept request documents) with
                  | error error =>
                      obtain ⟨first, last, starts, ends, unmarked⟩ :=
                        (boundaryCursors_eq_error_iff _ _).mp cursors
                      exact ⟨_, [], .error error, next, sink, rfl, rfl,
                        .unmarked total calls documents error first last counted next asked checked
                          course starts ends unmarked, fun _ _ => .inl ⟨rfl, rfl⟩⟩
                  | ok ends =>
                      obtain ⟨start, stop⟩ := ends
                      obtain ⟨result, filled, log, drained, drainedLogged, flow⟩ :=
                        consumer.drain_logged ((Pagination.kept request documents).map .ok) sink []
                      rw [List.nil_append] at drainedLogged
                      simp only [drained, drainedLogged]
                      refine ⟨_, log, _, next, filled, rfl, rfl,
                        .delivered total calls documents start stop log result counted next asked
                          checked course cursors flow, ?_⟩
                      intro error failed
                      cases result with
                      | ok _ => cases failed
                      | error other =>
                          cases failed
                          exact .inr (flow.last_of_error rfl)

/-- A consumer that has enough after the first document ends the delivery, and the page is described
in full. -/
example :
    let page : DocumentStream := [.ok [(idField, .string "a")], .ok [(idField, .string "b")]]
    let enough := Consumer.recorder (some ⟨0, .endOfStream⟩)
    let paged := Collection.paginate ⟨"items", Script.backend⟩ Filter.everything none enough
      (⟨[.number 2, .stream page], []⟩, [])
    paged.1 = .ok ⟨2, some ⟨"a"⟩, some ⟨"b"⟩, false, false⟩ ∧ paged.2.2.length = 1 := by
  exact ⟨rfl, rfl⟩

/-- A window by position is delivered whole when the backend yields more than it is asked for. -/
theorem window_delivered_beyond_limit :
    let first : Document := [(idField, .string "a")]
    let second : Document := [(idField, .string "b")]
    let script : Script := ⟨[.number 2, .stream [.ok first, .ok second]], []⟩
    let paged := Collection.paginate ⟨"items", Script.backend⟩ Filter.everything
      (some (.offset ⟨0, 1⟩)) (Consumer.recorder none) (script, [])
    paged.2.2 = [some first, some second, none] ∧
      paged.2.2 ≠ ([first, second].take 1).map some ++ [none] := by
  intro first second script paged
  have delivered : paged.2.2 = [some first, some second, none] := by rfl
  refine ⟨delivered, ?_⟩
  intro same
  have lengths := congrArg List.length (delivered.symm.trans same)
  cases lengths

end Collection

end DocStore
