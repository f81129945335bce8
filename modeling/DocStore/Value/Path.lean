import DocStore.Value

/-!
# Paths into values

A field name is a dotted path. Going down a path, a document offers the field of that name. An
array offers the element that a numeric segment indexes, and after it whatever the path reaches
in each element that is a document. So one path can reach any number of values, listed from left
to right. The empty path reaches the value itself.
-/

namespace DocStore

/-- Cuts a text at every dot; there is always at least one piece. -/
def splitDots : List Char → List (List Char)
  | [] => [[]]
  | letter :: rest =>
      if letter = '.' then [] :: splitDots rest
      else
        match splitDots rest with
        | [] => [[letter]]
        | piece :: pieces => (letter :: piece) :: pieces

/-- The segments of a dotted name. The empty name has one segment, which is empty. -/
def segments (name : String) : List String :=
  (splitDots name.toList).map String.ofList

/-- The path that a field name denotes: its segments, save that the empty name is the empty
path. -/
def route (name : String) : List String :=
  if name.isEmpty then [] else segments name

/-- True exactly for the ten ASCII digits. -/
def isDigit (letter : Char) : Bool :=
  decide ('0' ≤ letter ∧ letter ≤ '9')

/-- The number that a run of decimal digits denotes. -/
def digitsValue (digits : List Char) : Nat :=
  digits.foldl (fun total digit => 10 * total + (digit.toNat - 48)) 0

/-- No index reaches this number, two to the power of 64. -/
def indexLimit : Nat := 18446744073709551616

/-- The array index that a segment denotes: decimal digits after an optional plus sign. Leading
zeros are allowed. -/
def index? (segment : String) : Option Nat :=
  let digits :=
    match segment.toList with
    | '+' :: rest => rest
    | letters => letters
  if digits.isEmpty || !digits.all isDigit then none
  else if digitsValue digits < indexLimit then some (digitsValue digits)
  else none

mutual

/-- Every value that a path reaches from a value, in order. -/
def Value.reach : Value → List String → List Value
  | value, [] => [value]
  | .document fields, segment :: rest => reachField fields segment rest
  | .array items, segment :: rest =>
      (match index? segment with
        | some index => reachItem items index rest
        | none => []) ++ reachDocuments items (segment :: rest)
  | _, _ :: _ => []

/-- What a path reaches from the first field of a name. -/
def reachField : List (String × Value) → String → List String → List Value
  | [], _, _ => []
  | (current, value) :: fields, name, rest =>
      if current = name then value.reach rest else reachField fields name rest

/-- What a path reaches from the element at a position. -/
def reachItem : List Value → Nat → List String → List Value
  | [], _, _ => []
  | value :: _, 0, rest => value.reach rest
  | _ :: items, index + 1, rest => reachItem items index rest

/-- What a path reaches from all the elements that are documents. -/
def reachDocuments : List Value → List String → List Value
  | [], _ => []
  | value :: items, path =>
      (if value.isDocument then value.reach path else []) ++ reachDocuments items path

end

/-- Every value that a path reaches from a whole document. The empty path reaches none, for a
document is not a value of its own. -/
def Document.reach (document : Document) : List String → List Value
  | [] => []
  | segment :: rest => reachField document segment rest

@[simp] theorem Value.reach_nil (value : Value) : value.reach [] = [value] := by
  cases value <;> rfl

/-- A named step goes into the value of that field, if there is one. -/
theorem reachField_eq (fields : Document) (name : String) (rest : List String) :
    reachField fields name rest =
      match Document.field? fields name with
      | some value => value.reach rest
      | none => [] := by
  induction fields with
  | nil => rfl
  | cons field fields ih =>
      obtain ⟨current, value⟩ := field
      by_cases here : current = name
      · simp [reachField, Document.field?, here]
      · simp [reachField, Document.field?, here, ih]

/-- A positional step goes into the element at that position, if there is one. -/
theorem reachItem_eq (items : List Value) (index : Nat) (rest : List String) :
    reachItem items index rest =
      match items[index]? with
      | some value => value.reach rest
      | none => [] := by
  induction items generalizing index with
  | nil => simp [reachItem]
  | cons value items ih =>
      cases index with
      | zero => simp [reachItem]
      | succ index => simp [reachItem, ih]

/-- The fan-out over an array visits its documents in order and skips every other element. -/
theorem reachDocuments_eq (items : List Value) (path : List String) :
    reachDocuments items path =
      (items.filter Value.isDocument).flatMap fun value => value.reach path := by
  induction items with
  | nil => rfl
  | cons value items ih =>
      by_cases document : value.isDocument = true <;>
        simp [reachDocuments, document, ih]

/-- A field name of one segment reaches that field alone. -/
theorem Document.reach_field {document : Document} {name : String} (single : route name = [name])
    {value : Value} (found : Document.field? document name = some value) :
    Document.reach document (route name) = [value] := by
  rw [single, Document.reach, reachField_eq, found]
  exact Value.reach_nil value

/-- Dots separate segments: putting a dot between a dotless name and any name puts the first in
front as a segment of its own. -/
theorem splitDots_append (first rest : List Char) (dotless : '.' ∉ first) :
    splitDots (first ++ '.' :: rest) = first :: splitDots rest := by
  induction first with
  | nil => simp [splitDots]
  | cons letter letters ih =>
      have notDot : letter ≠ '.' := fun same => dotless (by simp [same])
      have later : '.' ∉ letters := fun inside => dotless (by simp [inside])
      simp [splitDots, notDot, ih later]

example : segments "a..b" = ["a", "", "b"] ∧ segments "" = [""] ∧ route "" = [] := by
  decide +kernel

example : index? "+007" = some 7 ∧ index? "+" = none ∧ index? "-0" = none ∧
    index? "18446744073709551615" = some 18446744073709551615 ∧
    index? "18446744073709551616" = none := by
  decide +kernel

end DocStore
