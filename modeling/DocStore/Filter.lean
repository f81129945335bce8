import DocStore.Value

/-!
# Filters

A filter is a tree: comparisons of one field with one operand, tests for presence, and the three
connectives over them. The empty conjunction matches every document. Joining to a conjunction
appends to it, joining to anything else makes a new pair; the same holds for disjunctions.
-/

namespace DocStore

/-- The field that identifies a document. -/
def idField : String := "id"

/-- The comparisons of a field with an operand. -/
inductive Operator where
  | eq
  | ne
  | gt
  | gte
  | lt
  | lte
  | contains
  | notContains
  | startsWith
  | endsWith
  | anyOf
  | noneOf
deriving DecidableEq, Repr

/-- A condition on documents. -/
inductive Filter where
  | all (parts : List Filter)
  | any (parts : List Filter)
  | negation (part : Filter)
  | presence (field : String) (expected : Bool)
  | comparison (field : String) (operator : Operator) (operand : Value)
deriving Repr, Inhabited

namespace Filter

/-- Matches every document. -/
def everything : Filter := .all []

/-- Matches the documents whose field equals a value. -/
def eq (field : String) (operand : Value) : Filter := .comparison field .eq operand

/-- Matches the documents of an identifier. -/
def id (identifier : String) : Filter := eq idField (.string identifier)

/-- Both conditions; a conjunction grows at its end. -/
def and (filter other : Filter) : Filter :=
  match filter with
  | .all parts => .all (parts ++ [other])
  | single => .all [single, other]

/-- Either condition; a disjunction grows at its end. -/
def or (filter other : Filter) : Filter :=
  match filter with
  | .any parts => .any (parts ++ [other])
  | single => .any [single, other]

/-- The opposite condition. -/
def not (filter : Filter) : Filter := .negation filter

mutual

/-- Adds to a document the fields that a filter fixes: equalities on undotted names that every
match must satisfy. -/
def fixFields (seed : Document) : Filter → Document
  | .all parts => fixFieldsOfAll seed parts
  | .comparison field .eq operand =>
      if '.' ∈ field.toList then seed else Document.put seed field operand
  | _ => seed

/-- Adds the fields that each of several filters fixes, from left to right. -/
def fixFieldsOfAll (seed : Document) : List Filter → Document
  | [] => seed
  | part :: parts => fixFieldsOfAll (fixFields seed part) parts

end

/-- The document that holds exactly the fields a filter fixes; an insertion on behalf of the
filter starts from it. -/
def equalityFields (filter : Filter) : Document := fixFields [] filter

@[simp] theorem and_all (parts : List Filter) (other : Filter) :
    (Filter.all parts).and other = .all (parts ++ [other]) := rfl

@[simp] theorem or_any (parts : List Filter) (other : Filter) :
    (Filter.any parts).or other = .any (parts ++ [other]) := rfl

end Filter

/-- Limits a `$[identifier]` segment of an update to the array elements that a filter accepts.
Field names in the filter are relative to the element, and the empty name is the element itself. -/
structure ArrayFilter where
  identifier : String
  filter : Filter
deriving Repr

end DocStore
