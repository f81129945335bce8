import DocStore.Error
import DocStore.Query

/-!
# Queries for a MongoDB server

Filters as query documents of a MongoDB server. The filter of an array filter is about one
element: its field names are put behind the identifier of the element, and the empty name is the
element itself. Text operators become regular expressions in which the text stands for itself.
-/

namespace DocStore.Mongo

/-- The path that a field name denotes, relative to the element of an array filter if there is
one. -/
def pathIn (scope : Option String) (field : String) : String :=
  match scope with
  | none => field
  | some identifier => if field.isEmpty then identifier else identifier ++ "." ++ field

/-- The characters that mean something in a regular expression. -/
def metaCharacters : List Char :=
  ['\\', '^', '$', '.', '|', '?', '*', '+', '(', ')', '[', ']', '\x7b', '\x7d', '-', '/']

/-- Letters with a backslash before each that a regular expression would not take for itself. -/
def escapeLetters : List Char → List Char
  | [] => []
  | letter :: rest =>
      if letter ∈ metaCharacters then '\\' :: letter :: escapeLetters rest
      else letter :: escapeLetters rest

/-- A pattern that matches exactly the given text. -/
def escape (text : String) : String := String.ofList (escapeLetters text.toList)

/-- A condition of one operator. -/
def condition (operator : String) (operand : Value) : Document := [(operator, operand)]

/-- The text operand that an operator requires. -/
def requireText (operator : String) : Value → Except StoreError String
  | .string text => .ok text
  | other => .error (.invalidParams (.textRequired operator other.kind))

/-- The operand of a membership operator, which is always a list. -/
def listOperand : Value → Value
  | .array items => .array items
  | single => .array [single]

/-- The condition on a field that an operator and its operand make. -/
def conditionOf (operator : Operator) (operand : Value) : Except StoreError Document :=
  match operator with
  | .eq => .ok (condition "$eq" operand)
  | .ne => .ok (condition "$ne" operand)
  | .gt => .ok (condition "$gt" operand)
  | .gte => .ok (condition "$gte" operand)
  | .lt => .ok (condition "$lt" operand)
  | .lte => .ok (condition "$lte" operand)
  | .contains =>
      match operand with
      | .string text => .ok (condition "$regex" (.string (escape text)))
      | .array items => .ok (condition "$all" (.array items))
      | other => .ok (condition "$eq" other)
  | .notContains =>
      match operand with
      | .string text =>
          .ok (condition "$not" (.document (condition "$regex" (.string (escape text)))))
      | .array items => .ok (condition "$not" (.document (condition "$all" (.array items))))
      | other => .ok (condition "$ne" other)
  | .startsWith =>
      match requireText "starts_with" operand with
      | .ok text => .ok (condition "$regex" (.string ("^" ++ escape text)))
      | .error error => .error error
  | .endsWith =>
      match requireText "ends_with" operand with
      | .ok text => .ok (condition "$regex" (.string (escape text ++ "$")))
      | .error error => .error error
  | .anyOf => .ok (condition "$in" (listOperand operand))
  | .noneOf => .ok (condition "$nin" (listOperand operand))

mutual

/-- The query document of a filter. A server refuses an empty disjunction, so one that matches
nothing stands in its place. -/
def queryIn (scope : Option String) : Filter → Except StoreError Document
  | .all [] => .ok []
  | .all (part :: parts) =>
      match queriesIn scope (part :: parts) with
      | .ok queries => .ok (condition "$and" (.array queries))
      | .error error => .error error
  | .any [] => .ok (condition "$expr" (.boolean false))
  | .any (part :: parts) =>
      match queriesIn scope (part :: parts) with
      | .ok queries => .ok (condition "$or" (.array queries))
      | .error error => .error error
  | .negation part =>
      match queryIn scope part with
      | .ok query => .ok (condition "$nor" (.array [.document query]))
      | .error error => .error error
  | .presence field expected =>
      .ok [(pathIn scope field, .document (condition "$exists" (.boolean expected)))]
  | .comparison field operator operand =>
      match conditionOf operator operand with
      | .ok test => .ok [(pathIn scope field, .document test)]
      | .error error => .error error

/-- The query documents of several filters, as values; the first that fails decides. -/
def queriesIn (scope : Option String) : List Filter → Except StoreError (List Value)
  | [] => .ok []
  | part :: parts =>
      match queryIn scope part with
      | .error error => .error error
      | .ok query =>
          match queriesIn scope parts with
          | .error error => .error error
          | .ok queries => .ok (.document query :: queries)

end

/-- The query document of a filter on whole documents. -/
def query (filter : Filter) : Except StoreError Document := queryIn none filter

/-- The query documents of array filters, each about the elements of its identifier. -/
def arrayFilterQueries : List ArrayFilter → Except StoreError (List Document)
  | [] => .ok []
  | scope :: scopes =>
      match queryIn (some scope.identifier) scope.filter with
      | .error error => .error error
      | .ok query =>
          match arrayFilterQueries scopes with
          | .error error => .error error
          | .ok queries => .ok (query :: queries)

/-- The document that asks for a sort. -/
def sortDocument (sort : SortOrder) : Document :=
  [(sort.field, .int32 (match sort.direction with | .ascending => 1 | .descending => -1))]

end DocStore.Mongo
