import DocStore.Filter.Match
import DocStore.Mongo.Query

/-!
# What queries mean

Different filters may become one query document: containment of a number is equality with it, and
a single alternative is a list of one. Main statement: such filters accept alike, so a query
document loses nothing of what its filter means.

The proof reads query documents back. A reader turns a query document into a filter, and the filter
that it makes of a translation accepts what the translated one does. Reading is possible because
field names and texts come back whole: the element of an array filter is a prefix of known length,
and in a pattern only an anchor stands unescaped.
-/

namespace DocStore.Mongo

/-- The field name that a path denotes, relative to the element of an array filter if there is
one. -/
def fieldIn (scope : Option String) (path : String) : String :=
  match scope with
  | none => path
  | some identifier => String.ofList (path.toList.drop (identifier.toList.length + 1))

/-- A path gives its field name back, also when it is the element itself. -/
@[simp] theorem fieldIn_pathIn (scope : Option String) (field : String) :
    fieldIn scope (pathIn scope field) = field := by
  cases scope with
  | none => rfl
  | some identifier =>
      by_cases empty : field = ""
      · subst empty
        simp [fieldIn, pathIn]
      · have named : field.isEmpty = false := by simpa [String.isEmpty_iff] using empty
        have letters : (identifier ++ "." ++ field).toList.drop (identifier.toList.length + 1) =
            field.toList := by
          simp [String.toList_append, List.append_assoc, List.drop_append]
        simp only [fieldIn, pathIn, named, Bool.false_eq_true, if_false, letters,
          String.ofList_toList]

/-- The letters that an escaped pattern stands for, and whether an anchor ends it. -/
def readLetters : List Char → List Char × Bool
  | [] => ([], false)
  | '\\' :: letter :: rest => (letter :: (readLetters rest).1, (readLetters rest).2)
  | ['$'] => ([], true)
  | letter :: rest => (letter :: (readLetters rest).1, (readLetters rest).2)

/-- Escaped letters read back as they were, whatever follows them. -/
theorem readLetters_escapeLetters (letters rest : List Char) :
    readLetters (escapeLetters letters ++ rest) =
      (letters ++ (readLetters rest).1, (readLetters rest).2) := by
  induction letters with
  | nil => rfl
  | cons letter letters ih =>
      by_cases special : letter ∈ metaCharacters
      · simp [escapeLetters, special, readLetters, ih]
      · have notEscape : letter ≠ '\\' := by
          rintro rfl
          exact special (by decide)
        have notAnchor : letter ≠ '$' := by
          rintro rfl
          exact special (by decide)
        simp [escapeLetters, special, readLetters, ih, notEscape, notAnchor]

/-- The text operator that a pattern stands for, and its operand. -/
def readPattern (pattern : String) : Operator × String :=
  if pattern.toList.head? = some '^' then
    (.startsWith, String.ofList (readLetters pattern.toList.tail).1)
  else
    (if (readLetters pattern.toList).2 then .endsWith else .contains,
      String.ofList (readLetters pattern.toList).1)

/-- No escaped text starts with the anchor of a start. -/
theorem head?_escapeLetters (letters : List Char) : (escapeLetters letters).head? ≠ some '^' := by
  cases letters with
  | nil => simp [escapeLetters]
  | cons letter letters =>
      by_cases special : letter ∈ metaCharacters
      · simp [escapeLetters, special]
      · have notAnchor : letter ≠ '^' := by
          rintro rfl
          exact special (by decide)
        simpa [escapeLetters, special] using notAnchor

/-- An escaped text stands for containment. -/
theorem readPattern_escape (text : String) : readPattern (escape text) = (.contains, text) := by
  have read := readLetters_escapeLetters text.toList []
  simp only [List.append_nil, readLetters] at read
  simp [readPattern, escape, head?_escapeLetters, read]

/-- An escaped text behind the anchor of a start stands for a prefix. -/
theorem readPattern_anchored_start (text : String) :
    readPattern ("^" ++ escape text) = (.startsWith, text) := by
  have read := readLetters_escapeLetters text.toList []
  simp only [List.append_nil, readLetters] at read
  simp [readPattern, escape, String.toList_append, read]

/-- An escaped text before the anchor of an end stands for a suffix. -/
theorem readPattern_anchored_end (text : String) :
    readPattern (escape text ++ "$") = (.endsWith, text) := by
  have read := readLetters_escapeLetters text.toList ['$']
  have letters : (escape text ++ "$").toList = escapeLetters text.toList ++ ['$'] := by
    simp [escape, String.toList_append]
  -- The text may be empty; then the anchor of the end comes first.
  have unanchored : (escapeLetters text.toList ++ ['$']).head? ≠ some '^' := by
    have head := head?_escapeLetters text.toList
    cases escaped : escapeLetters text.toList with
    | nil => decide
    | cons letter letters =>
        rw [escaped] at head
        exact head
  simp only [readLetters, List.append_nil] at read
  rw [readPattern, letters, if_neg unanchored, read]
  simp

/-- The filter on a field that a condition of one operator stands for. -/
def readCondition (field : String) : Document → Filter
  | [("$eq", operand)] => .comparison field .eq operand
  | [("$ne", operand)] => .comparison field .ne operand
  | [("$gt", operand)] => .comparison field .gt operand
  | [("$gte", operand)] => .comparison field .gte operand
  | [("$lt", operand)] => .comparison field .lt operand
  | [("$lte", operand)] => .comparison field .lte operand
  | [("$all", operand)] => .comparison field .contains operand
  | [("$in", operand)] => .comparison field .anyOf operand
  | [("$nin", operand)] => .comparison field .noneOf operand
  | [("$regex", .string pattern)] =>
      .comparison field (readPattern pattern).1 (.string (readPattern pattern).2)
  | [("$not", .document test)] => .negation (readCondition field test)
  | [("$exists", .boolean expected)] => .presence field expected
  | _ => .everything

mutual

/-- The filter that a query document stands for. -/
def readQuery (scope : Option String) : Document → Filter
  | [("$and", .array queries)] => .all (readQueries scope queries)
  | [("$or", .array queries)] => .any (readQueries scope queries)
  | [("$nor", .array [.document query])] => .negation (readQuery scope query)
  | [("$expr", .boolean _)] => .any []
  | [(path, .document test)] => readCondition (fieldIn scope path) test
  | _ => .everything

/-- The filters that several query documents stand for. -/
def readQueries (scope : Option String) : List Value → List Filter
  | .document query :: queries => readQuery scope query :: readQueries scope queries
  | _ => []

end

variable {reached : String → List Value}

/-- Containment of what is neither a text nor an array is equality. -/
theorem containsHit_eq {operand : Value} (notText : ∀ text, operand ≠ .string text)
    (notArray : ∀ items, operand ≠ .array items) (found : List Value) :
    containsHit operand found = found.any fun value => value.meets (Value.alike · operand) := by
  unfold containsHit
  split
  · exact absurd rfl (notText _)
  · exact absurd rfl (notArray _)
  · rfl

/-- A list of alternatives hits what the alternatives hit. -/
theorem memberHit_listOperand (operand : Value) (found : List Value) :
    memberHit (listOperand operand) found = memberHit operand found := by
  cases operand <;> rfl

/-- What a condition stands for accepts what the comparison accepts that it was made for. There is
one case for each operator. -/
theorem accepts_readCondition {operator : Operator} {operand : Value} {test : Document}
    (told : conditionOf operator operand = .ok test) (field : String) :
    (readCondition field test).accepts reached =
      (Filter.comparison field operator operand).accepts reached := by
  cases operator with
  | contains =>
      simp only [conditionOf] at told
      split at told
      · cases told
        simp [condition, readCondition, readPattern_escape]
      · cases told
        simp [condition, readCondition]
      · rename_i notText notArray
        cases told
        simp [condition, readCondition, Filter.accepts, Operator.accepts,
          containsHit_eq notText notArray]
  | notContains =>
      simp only [conditionOf] at told
      split at told
      · cases told
        simp [condition, readCondition, readPattern_escape, Filter.accepts, Operator.accepts]
      · cases told
        simp [condition, readCondition, Filter.accepts, Operator.accepts]
      · rename_i notText notArray
        cases told
        simp [condition, readCondition, Filter.accepts, Operator.accepts,
          containsHit_eq notText notArray]
  | startsWith =>
      cases operand with
      | string text =>
          cases told
          simp [condition, readCondition, readPattern_anchored_start]
      | _ => cases told
  | endsWith =>
      cases operand with
      | string text =>
          cases told
          simp [condition, readCondition, readPattern_anchored_end]
      | _ => cases told
  | anyOf =>
      cases told
      simp [condition, readCondition, Filter.accepts, Operator.accepts, memberHit_listOperand]
  | noneOf =>
      cases told
      simp [condition, readCondition, Filter.accepts, Operator.accepts, memberHit_listOperand]
  | _ =>
      cases told
      simp [condition, readCondition]

mutual

/-- The filter that a translation stands for accepts what the translated filter accepts. The
induction is on the filter, with one case for each node. -/
theorem accepts_readQuery {scope : Option String} :
    ∀ {filter : Filter} {query : Document}, queryIn scope filter = .ok query →
      (readQuery scope query).accepts reached = filter.accepts reached
  | .all [], query, told => by
      cases told
      simp [readQuery, Filter.everything]
  | .all (part :: parts), query, told => by
      simp only [queryIn] at told
      split at told
      · rename_i queries translated
        cases told
        simp only [condition, readQuery, Filter.accepts, (accepts_readQueries translated).1]
      · cases told
  | .any [], query, told => by
      cases told
      simp [condition, readQuery]
  | .any (part :: parts), query, told => by
      simp only [queryIn] at told
      split at told
      · rename_i queries translated
        cases told
        simp only [condition, readQuery, Filter.accepts, (accepts_readQueries translated).2]
      · cases told
  | .negation part, query, told => by
      simp only [queryIn] at told
      split at told
      · rename_i inner translated
        cases told
        simp only [condition, readQuery, Filter.accepts_negation, accepts_readQuery translated]
      · cases told
  | .presence field expected, query, told => by
      cases told
      simp [condition, readQuery, readCondition]
  | .comparison field operator operand, query, told => by
      simp only [queryIn] at told
      split at told
      · rename_i test made
        cases told
        simp only [readQuery, fieldIn_pathIn]
        exact accepts_readCondition made field
      · cases told

/-- The filters that translations stand for accept what the translated filters accept, all of them
together and one of them at least. -/
theorem accepts_readQueries {scope : Option String} :
    ∀ {parts : List Filter} {queries : List Value}, queriesIn scope parts = .ok queries →
      allAccept reached (readQueries scope queries) = allAccept reached parts ∧
        anyAccept reached (readQueries scope queries) = anyAccept reached parts
  | [], queries, told => by
      cases told
      simp [readQueries]
  | part :: parts, queries, told => by
      simp only [queriesIn] at told
      split at told
      · cases told
      · rename_i query translated
        split at told
        · cases told
        · rename_i rest remaining
          cases told
          have first := accepts_readQuery translated
          obtain ⟨all, any⟩ := accepts_readQueries remaining
          simp only [readQueries, allAccept, anyAccept, first, all, any, and_self]

end

/-- Filters of one query document, whole or about the elements of one array filter, accept the same
documents and the same values. -/
theorem accepts_alike_of_query_eq {scope : Option String} {left right : Filter} {query : Document}
    (leftTold : queryIn scope left = .ok query) (rightTold : queryIn scope right = .ok query) :
    (∀ document : Document, document.matches left = document.matches right) ∧
      ∀ value : Value, value.matches left = value.matches right := by
  have alike (reached : String → List Value) : left.accepts reached = right.accepts reached :=
    (accepts_readQuery leftTold).symm.trans (accepts_readQuery rightTold)
  exact ⟨fun _ => alike _, fun _ => alike _⟩

/-- Containment of a number is sent as equality, and a single alternative as a list of one; the
filters accept alike. -/
theorem accepts_alike_of_single_alternative :
    let left : Filter := .any [.comparison "" .anyOf (.string "a"),
      .negation (.comparison "n" .contains (.int32 3))]
    let right : Filter := .any [.comparison "" .anyOf (.array [.string "a"]),
      .negation (.comparison "n" .eq (.int32 3))]
    let query : Document := condition "$or" (.array [
      .document [("e", .document (condition "$in" (.array [.string "a"])))],
      .document (condition "$nor" (.array [
        .document [("e.n", .document (condition "$eq" (.int32 3)))]]))])
    queryIn (some "e") left = .ok query ∧ queryIn (some "e") right = .ok query ∧
      (∀ document : Document, document.matches left = document.matches right) ∧
        ∀ value : Value, value.matches left = value.matches right := by
  intro left right query
  have leftTold : queryIn (some "e") left = .ok query := by rfl
  have rightTold : queryIn (some "e") right = .ok query := by rfl
  exact ⟨leftTold, rightTold, accepts_alike_of_query_eq leftTold rightTold⟩

end DocStore.Mongo
