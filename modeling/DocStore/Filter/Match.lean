import DocStore.Filter
import DocStore.Value.Order
import DocStore.Value.Path

/-!
# Matching

Whether a filter accepts a document or an array element. A comparison looks at every value its
field reaches, and at the elements of each of those that is an array; the positive operators ask
for one hit and the negative ones for none. Matching always has an answer: an operand of an
unsuitable kind just never hits.
-/

namespace DocStore

/-- True when a value passes a test, or is an array with an element that does. -/
def Value.meets (value : Value) (test : Value → Bool) : Bool :=
  test value ||
    match value with
    | .array items => items.any test
    | _ => false

/-- True when the needle stands somewhere in the text. -/
def occursIn (needle : List Char) : List Char → Bool
  | [] => needle.isEmpty
  | letter :: rest => needle.isPrefixOf (letter :: rest) || occursIn needle rest

/-- A test on texts, failed by every value that is not a string. -/
def Value.textTest (test : List Char → Bool) : Value → Bool
  | .string text => test text.toList
  | _ => false

/-- What the order of a value against an operand has to be for an order operator. -/
def Value.ordered (accepted : Ordering → Bool) (operand value : Value) : Bool :=
  match value.order? operand with
  | some ordering => accepted ordering
  | none => false

/-- Containment: of a text in a text, of all needles in one array, of any other operand as
equality. -/
def containsHit (operand : Value) (found : List Value) : Bool :=
  match operand with
  | .string needle =>
      found.any fun value => value.meets (Value.textTest (occursIn needle.toList))
  | .array needles =>
      found.any fun value =>
        match value with
        | .array items => needles.all fun needle => items.any fun item => item.alike needle
        | _ => false
  | other => found.any fun value => value.meets (Value.alike · other)

/-- The alternatives that a membership operand lists; a single value is a list of one. -/
def Value.alternatives : Value → List Value
  | .array items => items
  | single => [single]

/-- Membership: a hit on any of the alternatives. -/
def memberHit (operand : Value) (found : List Value) : Bool :=
  found.any fun value =>
    value.meets fun candidate => operand.alternatives.any fun choice => choice.alike candidate

/-- True when a text operand passes the text test it selects; any other operand never does. -/
def textHit (test : List Char → List Char → Bool) (operand : Value) (found : List Value) : Bool :=
  match operand with
  | .string needle => found.any fun value => value.meets (Value.textTest (test needle.toList))
  | _ => false

/-- Whether an operator accepts an operand, given the values that the field reaches. -/
def Operator.accepts (operator : Operator) (operand : Value) (found : List Value) : Bool :=
  match operator with
  | .eq => found.any fun value => value.meets (Value.alike · operand)
  | .ne => !found.any fun value => value.meets (Value.alike · operand)
  | .gt => found.any fun value => value.meets (Value.ordered (· == .gt) operand)
  | .gte => found.any fun value => value.meets (Value.ordered (· != .lt) operand)
  | .lt => found.any fun value => value.meets (Value.ordered (· == .lt) operand)
  | .lte => found.any fun value => value.meets (Value.ordered (· != .gt) operand)
  | .contains => containsHit operand found
  | .notContains => !containsHit operand found
  | .startsWith => textHit List.isPrefixOf operand found
  | .endsWith => textHit List.isSuffixOf operand found
  | .anyOf => memberHit operand found
  | .noneOf => !memberHit operand found

mutual

/-- Whether a filter accepts a subject, given the values that each field name reaches in it. -/
def Filter.accepts (reached : String → List Value) : Filter → Bool
  | .all parts => allAccept reached parts
  | .any parts => anyAccept reached parts
  | .negation part => !part.accepts reached
  | .presence field expected => (!(reached field).isEmpty) == expected
  | .comparison field operator operand => operator.accepts operand (reached field)

/-- True exactly when every filter of a list accepts. -/
def allAccept (reached : String → List Value) : List Filter → Bool
  | [] => true
  | part :: parts => part.accepts reached && allAccept reached parts

/-- True exactly when some filter of a list accepts. -/
def anyAccept (reached : String → List Value) : List Filter → Bool
  | [] => false
  | part :: parts => part.accepts reached || anyAccept reached parts

end

/-- Whether a filter accepts a document. -/
def Document.matches (document : Document) (filter : Filter) : Bool :=
  filter.accepts fun field => Document.reach document (route field)

/-- Whether a filter accepts a value on its own; the empty field name is the value itself. -/
def Value.matches (value : Value) (filter : Filter) : Bool :=
  filter.accepts fun field => value.reach (route field)

theorem allAccept_eq (reached : String → List Value) (parts : List Filter) :
    allAccept reached parts = parts.all fun part => part.accepts reached := by
  induction parts with
  | nil => rfl
  | cons part parts ih => simp [allAccept, ih]

theorem anyAccept_eq (reached : String → List Value) (parts : List Filter) :
    anyAccept reached parts = parts.any fun part => part.accepts reached := by
  induction parts with
  | nil => rfl
  | cons part parts ih => simp [anyAccept, ih]

@[simp] theorem Filter.accepts_all (reached : String → List Value) (parts : List Filter) :
    (Filter.all parts).accepts reached = parts.all fun part => part.accepts reached := by
  rw [Filter.accepts, allAccept_eq]

@[simp] theorem Filter.accepts_any (reached : String → List Value) (parts : List Filter) :
    (Filter.any parts).accepts reached = parts.any fun part => part.accepts reached := by
  rw [Filter.accepts, anyAccept_eq]

@[simp] theorem Filter.accepts_negation (reached : String → List Value) (part : Filter) :
    (Filter.negation part).accepts reached = !part.accepts reached := by
  rw [Filter.accepts]

/-- Joining with `and` means that both filters accept. -/
theorem Filter.accepts_and (reached : String → List Value) (filter other : Filter) :
    (filter.and other).accepts reached = (filter.accepts reached && other.accepts reached) := by
  cases filter <;> simp [Filter.and]

/-- Joining with `or` means that one of the filters accepts. -/
theorem Filter.accepts_or (reached : String → List Value) (filter other : Filter) :
    (filter.or other).accepts reached = (filter.accepts reached || other.accepts reached) := by
  cases filter <;> simp [Filter.or]

/-- Everything is accepted by the empty conjunction. -/
@[simp] theorem Document.matches_everything (document : Document) :
    Document.matches document Filter.everything = true := by
  simp [Document.matches, Filter.everything]

end DocStore
