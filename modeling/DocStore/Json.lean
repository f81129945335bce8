/-!
# Settings trees

The trees that requests and settings arrive in: the data model of JSON, with whole numbers kept
apart from all others. A record is read from an object by the names of its fields or from a list
by their order, and a field that a record does not know is ignored.
-/

namespace DocStore

/-- A tree of JSON data. Of a number that is not written as a whole number only its presence is
kept, for nothing here reads one. -/
inductive Json where
  | null
  | boolean (flag : Bool)
  | whole (number : Int)
  | fractional
  | string (text : String)
  | list (items : List Json)
  | object (fields : List (String × Json))
deriving Repr, Inhabited

namespace Json

/-- The text of a string. -/
def text? : Json → Option String
  | .string text => some text
  | _ => none

/-- The truth value of a boolean. -/
def flag? : Json → Option Bool
  | .boolean flag => some flag
  | _ => none

/-- A whole number that fits a signed word. -/
def signed? : Json → Option Int64
  | .whole number =>
      if -9223372036854775808 ≤ number ∧ number ≤ 9223372036854775807 then
        some (Int64.ofInt number)
      else none
  | _ => none

/-- A whole number that fits an unsigned word. -/
def unsigned? : Json → Option Nat
  | .whole number =>
      if 0 ≤ number ∧ number ≤ 18446744073709551615 then some number.toNat else none
  | _ => none

/-- A value that may be null. -/
def nullable {α : Type} (read : Json → Option α) : Json → Option (Option α)
  | .null => some none
  | value => (read value).map some

/-- The fields of a record whose field names are given in order. A list has to hold at least the
fields that have no default, and no more than there are. -/
def record? (names : List String) (required : Nat) : Json → Option (List (String × Json))
  | .object fields => some fields
  | .list items =>
      if required ≤ items.length ∧ items.length ≤ names.length then some (names.zip items)
      else none
  | _ => none

/-- Reads a field that has to be there. -/
def required {α : Type} (fields : List (String × Json)) (name : String)
    (read : Json → Option α) : Option α :=
  (fields.lookup name).bind read

/-- Reads a field that stands for a default when it is missing. -/
def optional {α : Type} (fields : List (String × Json)) (name : String) (read : Json → Option α)
    (default : α) : Option α :=
  match fields.lookup name with
  | some value => read value
  | none => some default

end Json

end DocStore
