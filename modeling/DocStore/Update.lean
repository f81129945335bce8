import DocStore.Error
import DocStore.Filter.Match

/-!
# Updates

An update assigns values to paths. Going down, a document is entered by field name and a missing
field is created; an array is entered by a numeric segment, by `$[]` for all its elements, or by
`$[identifier]` for the elements that the array filter of that name accepts. A numeric segment
past the end lengthens the array with nulls. Any other value cannot be entered.

Assignment is a function: a path that fails leaves nothing behind, and the elements that a
segment selects are chosen before any of them changes.
-/

namespace DocStore

/-- No numeric segment may address a position from here on: a document of the largest size the
format allows cannot hold as many elements. -/
def arrayLimit : Nat := 4194304

/-- The identifier inside a segment of the form `$[identifier]`; it is empty for `$[]`. -/
def identifierOf? (segment : String) : Option String :=
  match segment.toList with
  | '$' :: '[' :: rest =>
      if rest.getLast? = some ']' then some (String.ofList rest.dropLast) else none
  | _ => none

/-- The position in an array that a numeric segment may address. -/
def position? (segment : String) : Option Nat :=
  match index? segment with
  | some index => if index < arrayLimit then some index else none
  | none => none

/-- An array with nulls behind it up to a given length; a longer array stays as it is. -/
def padded (items : List Value) (length : Nat) : List Value :=
  items ++ List.replicate (length - items.length) .null

/-- What a segment selects in an array: one position, which may lie past the end, or some of the
elements that are there. -/
inductive Selection where
  | position (index : Nat)
  | elements (marked : List (Bool × Value))

/-- The selection that a segment makes in an array; `elements` pairs each element with whether it
is selected. -/
def select (scopes : List ArrayFilter) (items : List Value) (segment : String) :
    Except Refusal Selection :=
  match identifierOf? segment with
  | some "" => .ok (.elements (items.map fun item => (true, item)))
  | some identifier =>
      match scopes.find? fun scope => scope.identifier == identifier with
      | some scope => .ok (.elements (items.map fun item => (item.matches scope.filter, item)))
      | none => .error (.unknownIdentifier identifier)
  | none =>
      match position? segment with
      | some index => .ok (.position index)
      | none => .error (.unaddressable segment)

/-- Applies a fallible change to every selected element, from left to right; the first failure
ends it. -/
def changeSelected (change : Value → Except Refusal Value) :
    List (Bool × Value) → Except Refusal (List Value)
  | [] => .ok []
  | (selected, item) :: rest =>
      match (if selected then change item else .ok item) with
      | .error refusal => .error refusal
      | .ok changed =>
          match changeSelected change rest with
          | .error refusal => .error refusal
          | .ok others => .ok (changed :: others)

/-- The value that results from assigning `new` at a path inside a value. At the empty path the
value itself is replaced. -/
def Value.assign (new : Value) (scopes : List ArrayFilter) :
    List String → Value → Except Refusal Value
  | [], _ => .ok new
  | segment :: rest, .document fields =>
      match assign new scopes rest ((Document.field? fields segment).getD (.document [])) with
      | .error refusal => .error refusal
      | .ok child => .ok (.document (Document.put fields segment child))
  | segment :: rest, .array items =>
      match select scopes items segment with
      | .error refusal => .error refusal
      | .ok (.position index) =>
          match assign new scopes rest (items[index]?.getD .null) with
          | .error refusal => .error refusal
          | .ok child => .ok (.array ((padded items (index + 1)).set index child))
      | .ok (.elements marked) =>
          match changeSelected (assign new scopes rest) marked with
          | .error refusal => .error refusal
          | .ok changed => .ok (.array changed)
  | segment :: rest, other => .error (.blockedField (segment :: rest) other.kind)

namespace Document

/-- The document that results from assigning a value at a path. -/
def assign (document : Document) (path : List String) (new : Value) (scopes : List ArrayFilter) :
    Except Refusal Document :=
  match path with
  | [] => .ok document
  | segment :: rest =>
      match Value.assign new scopes rest ((field? document segment).getD (.document [])) with
      | .error refusal => .error refusal
      | .ok child => .ok (put document segment child)

/-- True exactly when assigning a value to the field of the given name would change the
identifier of a document. An identifier may be written again, and a missing one supplied. -/
def changesId (document : Document) (name : String) (new : Value) : Bool :=
  name == idField &&
    match field? document idField with
    | some current => !current.identical new
    | none => false

/-- Applies the assignments of an update in order; the first that fails ends it. -/
def update (scopes : List ArrayFilter) : Document → List (String × Value) → Except Refusal Document
  | document, [] => .ok document
  | document, (name, new) :: rest =>
      if document.changesId name new then .error .immutableId
      else
        match assign document (segments name) new scopes with
        | .error refusal => .error refusal
        | .ok changed => update scopes changed rest

end Document

/-- A padded array has at least the length asked for. -/
theorem length_padded (items : List Value) (length : Nat) :
    (padded items length).length = max items.length length := by
  simp only [padded, List.length_append, List.length_replicate]
  omega

example : identifierOf? "$[]" = some "" ∧ identifierOf? "$[task]" = some "task" ∧
    identifierOf? "$[" = none := by
  decide +kernel

end DocStore
