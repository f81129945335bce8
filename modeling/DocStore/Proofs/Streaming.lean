import DocStore.Collection

/-!
# The calls of a consumer

What a consumer is called with while a query flows into it, and what the query makes of its answers.
A log of the calls is kept by a second consumer that passes every call on to the first, so it can be
kept for any consumer at any state without a change to what the consumer does.

A flow ends in one of three ways. Either the consumer takes every document and is told the end, or
the stream breaks after documents that the consumer took, or the consumer answers a document with an
error. Main statement: every query that is opened flows in one of these ways, whatever the stream
and the consumer are, and a query that is not opened calls nobody.
-/

namespace DocStore

/-- A call of a consumer: what it was handed, with `none` for the end, and its answer. -/
structure Exchange where
  received : Option Document
  answer : Except StoreError Unit

/-- What the answer to the last call makes of a query. The end-of-stream signal is a success, any
other error is the outcome. -/
def outcome : Except StoreError Unit → Except StoreError Unit
  | .error .endOfStream => .ok ()
  | answer => answer

/-- The calls in which a consumer takes documents. -/
def taking (documents : List Document) : List Exchange :=
  documents.map fun document => ⟨some document, .ok ()⟩

/-- How a stream flows into a consumer: the calls in their order, and the outcome. -/
inductive Flow (stream : DocumentStream) : List Exchange → Except StoreError Unit → Prop where
  /-- The stream is exhausted, and the consumer is told the end. -/
  | exhausted (documents : List Document) (answer : Except StoreError Unit)
      (whole : stream = documents.map .ok) :
      Flow stream (taking documents ++ [⟨none, answer⟩]) (outcome answer)
  /-- The stream breaks, and its error is the outcome. -/
  | broken (documents : List Document) (error : StoreError) (rest : DocumentStream)
      (breaks : stream = documents.map .ok ++ .error error :: rest) :
      Flow stream (taking documents) (.error error)
  /-- The consumer answers a document with an error. -/
  | refused (documents : List Document) (document : Document) (error : StoreError)
      (rest : DocumentStream) (stops : stream = documents.map .ok ++ .ok document :: rest) :
      Flow stream (taking documents ++ [⟨some document, .error error⟩]) (outcome (.error error))

namespace Flow

variable {stream : DocumentStream} {log : List Exchange} {result : Except StoreError Unit}

/-- A document that is taken goes before whatever flow follows it. -/
theorem cons (flow : Flow stream log result) (document : Document) :
    Flow (.ok document :: stream) (⟨some document, .ok ()⟩ :: log) result := by
  cases flow with
  | exhausted documents answer whole =>
      exact .exhausted (document :: documents) answer (by rw [whole, List.map_cons])
  | broken documents error rest breaks =>
      exact .broken (document :: documents) error rest (by rw [breaks]; rfl)
  | refused documents other error rest stops =>
      exact .refused (document :: documents) other error rest (by rw [stops]; rfl)

/-- In a call that takes a document the consumer was handed one and had no objection. -/
theorem of_mem_taking {documents : List Document} {exchange : Exchange}
    (inside : exchange ∈ taking documents) :
    exchange.received ≠ none ∧ exchange.answer = .ok () := by
  obtain ⟨document, _, rfl⟩ := List.mem_map.mp inside
  exact ⟨Option.some_ne_none document, rfl⟩

/-- Before its last call the consumer was only handed documents, and it took them all. -/
theorem of_mem_dropLast (flow : Flow stream log result) {exchange : Exchange}
    (earlier : exchange ∈ log.dropLast) :
    exchange.received ≠ none ∧ exchange.answer = .ok () := by
  cases flow with
  | exhausted documents answer whole =>
      rw [List.dropLast_concat] at earlier
      exact of_mem_taking earlier
  | broken documents error rest breaks => exact of_mem_taking ((List.dropLast_sublist _).subset earlier)
  | refused documents document error rest stops =>
      rw [List.dropLast_concat] at earlier
      exact of_mem_taking earlier

/-- The last call tells the end exactly when the stream has no error and the consumer took every
document that it was handed. -/
theorem ended_iff (flow : Flow stream log result) :
    (∃ answer, log.getLast? = some ⟨none, answer⟩) ↔
      (∀ item ∈ stream, ∃ document, item = .ok document) ∧
        ∀ exchange ∈ log, exchange.received ≠ none → exchange.answer = .ok () := by
  cases flow with
  | exhausted documents answer whole =>
      refine iff_of_true ⟨answer, List.getLast?_concat⟩ ⟨?_, ?_⟩
      · intro item inside
        rw [whole] at inside
        obtain ⟨document, _, same⟩ := List.mem_map.mp inside
        exact ⟨document, same.symm⟩
      · intro exchange inside handed
        rcases List.mem_append.mp inside with took | told
        · exact (of_mem_taking took).2
        · rw [List.mem_singleton.mp told] at handed
          exact absurd rfl handed
  | broken documents error rest breaks =>
      refine iff_of_false ?_ ?_
      · rintro ⟨answer, last⟩
        exact (of_mem_taking (List.mem_of_getLast? last)).1 rfl
      · rintro ⟨whole, _⟩
        have inside : .error error ∈ stream := by simp [breaks]
        obtain ⟨document, same⟩ := whole _ inside
        cases same
  | refused documents document error rest stops =>
      refine iff_of_false ?_ ?_
      · rintro ⟨answer, last⟩
        rw [List.getLast?_concat] at last
        cases last
      · rintro ⟨_, took⟩
        have accepted := took ⟨some document, .error error⟩ (by simp) (Option.some_ne_none document)
        cases accepted

end Flow

namespace Consumer

variable {κ : Type}

/-- Telling the end makes the answer to it the outcome. -/
theorem drain_exhausted {consumer : Consumer κ} {sink next : κ} {answer : Except StoreError Unit}
    (told : consumer.receive none sink = (answer, next)) :
    consumer.drain [] sink = (outcome answer, next) := by
  simp only [drain, finish, told]
  cases answer with
  | ok _ => rfl
  | error error => cases error <;> rfl

/-- After a document that the consumer takes the rest of the stream flows on. -/
theorem drain_taken {consumer : Consumer κ} {sink next : κ} {document : Document}
    (took : consumer.receive (some document) sink = (.ok (), next)) (rest : DocumentStream) :
    consumer.drain (.ok document :: rest) sink = consumer.drain rest next := by
  simp only [drain, feed, took]

/-- A document that the consumer answers with an error ends the flow. -/
theorem drain_refused {consumer : Consumer κ} {sink next : κ} {document : Document}
    {error : StoreError} (refused : consumer.receive (some document) sink = (.error error, next))
    (rest : DocumentStream) :
    consumer.drain (.ok document :: rest) sink = (outcome (.error error), next) := by
  simp only [drain, feed, refused]
  cases error <;> rfl

/-- The same consumer, with a log of its calls. -/
def logged (consumer : Consumer κ) : Consumer (κ × List Exchange) where
  receive received := fun (sink, log) =>
    match consumer.receive received sink with
    | (answer, next) => (answer, (next, log ++ [⟨received, answer⟩]))

/-- A logged call answers as the consumer does, and is added to the log. -/
theorem receive_logged {consumer : Consumer κ} {received : Option Document} {sink next : κ}
    {answer : Except StoreError Unit} (called : consumer.receive received sink = (answer, next))
    (log : List Exchange) :
    consumer.logged.receive received (sink, log) =
      (answer, (next, log ++ [⟨received, answer⟩])) := by
  simp only [logged, called]

/-- A stream flows into a consumer in one of the ways of a flow. The log records it and changes
neither the outcome nor what becomes of the consumer. The induction follows the stream, for a
consumer in any state. -/
theorem drain_logged (consumer : Consumer κ) (stream : DocumentStream) (sink : κ)
    (before : List Exchange) :
    ∃ (result : Except StoreError Unit) (filled : κ) (log : List Exchange),
      consumer.drain stream sink = (result, filled) ∧
      consumer.logged.drain stream (sink, before) = (result, (filled, before ++ log)) ∧
      Flow stream log result := by
  induction stream generalizing sink before with
  | nil =>
      cases told : consumer.receive none sink with
      | mk answer next =>
          exact ⟨outcome answer, next, [⟨none, answer⟩], drain_exhausted told,
            drain_exhausted (receive_logged told before), .exhausted [] answer rfl⟩
  | cons item rest ih =>
      cases item with
      | error error => exact ⟨.error error, sink, [], rfl, by simp [drain], .broken [] error rest rfl⟩
      | ok document =>
          cases called : consumer.receive (some document) sink with
          | mk answer next =>
              have recorded := receive_logged called before
              cases answer with
              | error error =>
                  exact ⟨outcome (.error error), next, [⟨some document, .error error⟩],
                    drain_refused called rest, drain_refused recorded rest,
                    .refused [] document error rest rfl⟩
              | ok _ =>
                  obtain ⟨result, filled, log, drained, loggedDrain, flow⟩ :=
                    ih next (before ++ [⟨some document, .ok ()⟩])
                  refine ⟨result, filled, ⟨some document, .ok ()⟩ :: log, ?_, ?_, flow.cons document⟩
                  · rw [drain_taken called, drained]
                  · rw [drain_taken recorded, loggedDrain, List.append_assoc, List.singleton_append]

/-- A stream that breaks behind its first document: the consumer is handed that document, and is
not told an end. -/
example : (recorder none).logged.drain [.ok [], .error .notFound, .ok []] ([], []) =
    (.error .notFound, ([some []], [⟨some [], .ok ()⟩])) := by
  rfl

end Consumer

namespace Collection

variable {σ κ : Type}

/-- A query that cannot be opened answers with the error of the backend and calls nobody. One that
is opened flows into the consumer: the documents are handed over in their order, up to the error of
the stream or the first answer that is an error. Before its last call the consumer was handed
documents only and took them all. Its last call tells the end exactly when the stream has no error
and the consumer took every document that it was handed. -/
theorem find_flow (collection : Collection σ) (filter : Filter) (options : ScanOptions)
    (consumer : Consumer κ) (state : σ) (sink : κ) :
    ∃ (opened : Except StoreError DocumentStream) (next : σ) (result : Except StoreError Unit)
      (filled : κ) (log : List Exchange),
      collection.backend.find collection.name filter options.diskUseAllowed state =
        (opened, next) ∧
      collection.find filter options consumer (state, sink) = (result, (next, filled)) ∧
      collection.find filter options consumer.logged (state, (sink, [])) =
        (result, (next, (filled, log))) ∧
      match opened with
      | .error error => result = .error error ∧ log = []
      | .ok stream =>
          Flow stream log result ∧
          (∀ exchange ∈ log.dropLast, exchange.received ≠ none ∧ exchange.answer = .ok ()) ∧
          ((∃ answer, log.getLast? = some ⟨none, answer⟩) ↔
            (∀ item ∈ stream, ∃ document, item = .ok document) ∧
              ∀ exchange ∈ log, exchange.received ≠ none → exchange.answer = .ok ()) := by
  cases found : collection.backend.find collection.name filter options.diskUseAllowed state with
  | mk opened next =>
      cases opened with
      | error error =>
          refine ⟨.error error, next, .error error, sink, [], rfl, ?_, ?_, rfl, rfl⟩
          · simp only [find, found]
          · simp only [find, found]
      | ok stream =>
          obtain ⟨result, filled, log, drained, recorded, flow⟩ :=
            consumer.drain_logged stream sink []
          rw [List.nil_append] at recorded
          refine ⟨.ok stream, next, result, filled, log, rfl, ?_, ?_, flow,
            fun _ => flow.of_mem_dropLast, flow.ended_iff⟩
          · simp only [find, found, drained]
          · simp only [find, found, recorded]

end Collection

end DocStore
