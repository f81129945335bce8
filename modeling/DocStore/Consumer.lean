import DocStore.Backend
import DocStore.Typed

/-!
# Consumers

A consumer is what the results of one query flow into. It is called with each document in turn,
and with `none` once at the end. A call may fail. The end-of-stream signal stops the flow and
counts as success, any other error stops it and is the outcome. After a failed call, or an error
from the stream itself, the consumer is not called again.
-/

namespace DocStore

/-- A receiver of documents over states `κ`. -/
structure Consumer (κ : Type) where
  receive : Option Document → Action κ Unit

namespace Consumer

variable {κ α : Type}

/-- Hands one document to a consumer. The answer tells whether it wants more. -/
def feed (consumer : Consumer κ) (document : Document) : Action κ Bool := fun state =>
  match consumer.receive (some document) state with
  | (.ok (), next) => (.ok true, next)
  | (.error .endOfStream, next) => (.ok false, next)
  | (.error error, next) => (.error error, next)

/-- Tells a consumer that no more documents come. -/
def finish (consumer : Consumer κ) : Action κ Unit := fun state =>
  match consumer.receive none state with
  | (.error .endOfStream, next) => (.ok (), next)
  | answered => answered

/-- Lets a stream flow into a consumer. -/
def drain (consumer : Consumer κ) : DocumentStream → Action κ Unit
  | [], state => consumer.finish state
  | .error error :: _, state => (.error error, state)
  | .ok document :: rest, state =>
      match consumer.feed document state with
      | (.ok true, next) => consumer.drain rest next
      | (.ok false, next) => (.ok (), next)
      | (.error error, next) => (.error error, next)

/-- Lets a list of documents flow into a consumer. -/
def deliver (consumer : Consumer κ) (documents : List Document) : Action κ Unit :=
  consumer.drain (documents.map .ok)

/-- A point at which a recording consumer fails, counted in calls from zero, and the error it
fails with. -/
structure Failure where
  call : Nat
  error : StoreError

/-- What a recording consumer answers to the call after `calls` others. -/
def answerAt (failure : Option Failure) (calls : Nat) : Except StoreError Unit :=
  match failure with
  | some failure => if failure.call = calls then .error failure.error else .ok ()
  | none => .ok ()

/-- Records every call, the end included, and fails at the chosen one after recording it. -/
def recorder (failure : Option Failure) : Consumer (List (Option Document)) where
  receive received := fun calls => (answerAt failure calls.length, calls ++ [received])

/-- Reads every document and collects the values. -/
def collector (codec : Codec α) : Consumer (List α) where
  receive
    | none => fun values => (.ok (), values)
    | some document => fun values =>
        match codec.ofDocument document with
        | .ok value => (.ok (), values ++ [value])
        | .error error => (.error error, values)

/-- Reads every document and passes the value on. The end of the stream is not passed on. -/
def each (codec : Codec α) (callback : α → Action κ Unit) : Consumer κ where
  receive
    | none => fun state => (.ok (), state)
    | some document => fun state =>
        match codec.ofDocument document with
        | .ok value => callback value state
        | .error error => (.error error, state)

/-- Reads every document and records the values, failing at the chosen call after recording. -/
def valueRecorder (codec : Codec α) (failure : Option Failure) : Consumer (List α) :=
  each codec fun value values => (answerAt failure values.length, values ++ [value])

end Consumer

/-- The first of the collected values, of which there must be one. -/
def firstOf (values : List α) : Except StoreError α :=
  match values with
  | value :: _ => .ok value
  | [] => .error .notFound

end DocStore
