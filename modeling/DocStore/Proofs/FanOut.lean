import DocStore.Filter.Match
import DocStore.Proofs.Identifiers

/-!
# Fields of the documents in an array

A path that leads to an array goes on in the documents of the array, unless its next segment is an
index. Main statement: a condition behind the array holds when one of these documents satisfies it
by itself, and a condition that excludes values holds when all of them do. Nothing else in the array
plays a part.

The reason is that the values reached behind the array are those reached in each of the documents,
one document after the other, and that every operator looks at reached values one by one.
-/

namespace DocStore

/-- The operators that exclude values. The others ask for a value. -/
def Operator.excludes : Operator → Bool
  | .ne | .notContains | .noneOf => true
  | _ => false

/-- What is asked of a field: that it is there or not, or a comparison. -/
inductive FieldTest where
  | presence (expected : Bool)
  | comparison (operator : Operator) (operand : Value)

namespace FieldTest

/-- The filter that asks a test of a field. -/
def on : FieldTest → String → Filter
  | .presence expected, field => .presence field expected
  | .comparison operator operand, field => .comparison field operator operand

/-- True for the tests that exclude values: absence, and the operators that do. -/
def excludes : FieldTest → Bool
  | .presence expected => !expected
  | .comparison operator _ => operator.excludes

end FieldTest

/-- The documents among the elements of an array, in order. -/
def documentsAmong : List Value → List Document
  | [] => []
  | .document fields :: items => fields :: documentsAmong items
  | _ :: items => documentsAmong items

/-- Whether all of some documents match a filter, or at least one. -/
def matchedBy (each : Bool) (documents : List Document) (filter : Filter) : Bool :=
  if each then documents.all (·.matches filter) else documents.any (·.matches filter)

variable {α : Type}

/-- Containment in values from several sources is containment in those of one source. -/
theorem containsHit_flatMap (operand : Value) (sources : List α) (found : α → List Value) :
    containsHit operand (sources.flatMap found) =
      sources.any fun source => containsHit operand (found source) := by
  unfold containsHit
  split <;> exact List.any_flatMap

/-- A text test of values from several sources is passed by those of one source. -/
theorem textHit_flatMap (test : List Char → List Char → Bool) (operand : Value) (sources : List α)
    (found : α → List Value) :
    textHit test operand (sources.flatMap found) =
      sources.any fun source => textHit test operand (found source) := by
  unfold textHit
  split
  · exact List.any_flatMap
  · simp

/-- Values from several sources are accepted when those of one source are, or, by an operator that
excludes values, when those of every source are. There is one case for each operator. -/
theorem Operator.accepts_flatMap (operator : Operator) (operand : Value) (sources : List α)
    (found : α → List Value) :
    operator.accepts operand (sources.flatMap found) =
      if operator.excludes then sources.all fun source => operator.accepts operand (found source)
      else sources.any fun source => operator.accepts operand (found source) := by
  cases operator with
  | ne => simp [accepts, excludes, List.any_flatMap, List.not_any_eq_all_not]
  | contains => exact containsHit_flatMap operand sources found
  | notContains => simp [accepts, excludes, containsHit_flatMap, List.not_any_eq_all_not]
  | startsWith => exact textHit_flatMap _ operand sources found
  | endsWith => exact textHit_flatMap _ operand sources found
  | noneOf => simp [accepts, excludes, memberHit, List.any_flatMap, List.not_any_eq_all_not]
  | _ => exact List.any_flatMap

/-- Nothing comes from several sources exactly when nothing comes from any of them. -/
theorem isEmpty_flatMap (sources : List α) (found : α → List Value) :
    (sources.flatMap found).isEmpty = sources.all fun source => (found source).isEmpty := by
  rw [Bool.eq_iff_iff, List.isEmpty_iff, List.flatMap_eq_nil_iff, List.all_eq_true]
  simp only [List.isEmpty_iff]

/-- The same for every test of a field, if it reaches what another one reaches in several
documents. -/
theorem FieldTest.accepts_of_flatMap (test : FieldTest) {reached : String → List Value}
    {field inner : String} {documents : List Document}
    (crossed : reached field =
      documents.flatMap fun document => Document.reach document (route inner)) :
    (test.on field).accepts reached = matchedBy test.excludes documents (test.on inner) := by
  cases test with
  | presence expected =>
      cases expected with
      | false =>
          simp [on, excludes, matchedBy, Document.matches, Filter.accepts, crossed, isEmpty_flatMap]
      | true =>
          simp [on, excludes, matchedBy, Document.matches, Filter.accepts, crossed, isEmpty_flatMap,
            List.not_all_eq_any_not]
  | comparison operator operand =>
      simp only [on, excludes, matchedBy, Document.matches, Filter.accepts, crossed]
      exact operator.accepts_flatMap operand documents _

/-- A path that goes on behind an array reaches what it reaches in the documents of the array. -/
theorem reachDocuments_eq_flatMap (items : List Value) (segment : String) (rest : List String) :
    reachDocuments items (segment :: rest) =
      (documentsAmong items).flatMap fun inner => Document.reach inner (segment :: rest) := by
  induction items with
  | nil => rfl
  | cons item items ih =>
      cases item <;>
        simp [reachDocuments, documentsAmong, Value.isDocument, Value.reach, Document.reach, ih]

/-- A dotless name in front of a path is its first segment. -/
theorem route_dotted {name : String} (dotless : '.' ∉ name.toList) (path : String) :
    route (name ++ "." ++ path) = name :: segments path := by
  have letters : (name ++ "." ++ path).toList = name.toList ++ '.' :: path.toList := by
    simp [String.toList_append]
  have nonempty : (name ++ "." ++ path).isEmpty = false := by
    rw [Bool.eq_false_iff, Ne, String.isEmpty_iff]
    intro empty
    simp [empty] at letters
  simp only [route, nonempty, Bool.false_eq_true, if_false, segments, letters,
    splitDots_append _ _ dotless, List.map_cons, String.ofList_toList]

namespace Document

/-- A path behind an array whose next segment is no index reaches what the rest of the path reaches
in the documents of the array. -/
theorem reach_dotted {document : Document} {name path : String} {items : List Value}
    (dotless : '.' ∉ name.toList) (held : field? document name = some (.array items))
    (named : path ≠ "") (unindexed : ∀ segment ∈ (segments path).head?, index? segment = none) :
    reach document (route (name ++ "." ++ path)) =
      (documentsAmong items).flatMap fun inner => reach inner (route path) := by
  have inner : route path = segments path := by simp [route, named]
  rw [route_dotted dotless, inner, reach, reachField_eq, held]
  cases split : segments path with
  | nil => exact absurd split (segments_ne_nil path)
  | cons segment rest =>
      rw [split] at unindexed
      simp only [Value.reach, unindexed segment rfl, List.nil_append]
      exact reachDocuments_eq_flatMap items segment rest

/-- A test of a path that crosses an array is a test of the documents in the array.

For every document with an array under a dotless name, every path that is not empty and does not
start with an index, and every test of a field: the test holds of the path behind the name exactly
when it holds of the path in one of the documents of the array, each taken by itself, or, if it
excludes values, in all of them. So an array with the same documents among other elements gives the
same result. -/
theorem test_fans_out {document : Document} {name path : String} {items : List Value}
    (dotless : '.' ∉ name.toList) (held : field? document name = some (.array items))
    (named : path ≠ "") (unindexed : ∀ segment ∈ (segments path).head?, index? segment = none)
    (test : FieldTest) :
    document.matches (test.on (name ++ "." ++ path)) =
        matchedBy test.excludes (documentsAmong items) (test.on path) ∧
      ∀ others, documentsAmong others = documentsAmong items →
        (put document name (.array others)).matches (test.on (name ++ "." ++ path)) =
          document.matches (test.on (name ++ "." ++ path)) := by
  have crossed {document : Document} {items : List Value}
      (held : field? document name = some (.array items)) :
      document.matches (test.on (name ++ "." ++ path)) =
        matchedBy test.excludes (documentsAmong items) (test.on path) :=
    test.accepts_of_flatMap (reach_dotted dotless held named unindexed)
  refine ⟨crossed held, fun others same => ?_⟩
  have written : field? (put document name (.array others)) name = some (.array others) := by
    rw [field?_put, if_pos rfl]
  rw [crossed written, crossed held, same]

/-- Two of the four elements are documents, and in the first of them the path goes on to an array. A
third document, inside an array, is not asked, and may be another one. -/
theorem test_fans_out_of_rows :
    let first : Document := [("k", .array [.int32 1, .string "x"])]
    let last : Document := [("0", .null), ("k", .string "xy")]
    let items : List Value :=
      [.document first, .array [.document [("k", .string "z")]], .string "z", .document last]
    let document : Document := [("rows", .array items)]
    let others : List Value := [.null, .document first, .document last]
    document.matches (.comparison "rows.k" .startsWith (.string "xy")) =
        matchedBy false [first, last] (.comparison "k" .startsWith (.string "xy")) ∧
      document.matches (.comparison "rows.k" .noneOf (.array [.string "z", .string "x"])) =
        matchedBy true [first, last] (.comparison "k" .noneOf (.array [.string "z", .string "x"])) ∧
      (put document "rows" (.array others)).matches
          (.comparison "rows.k" .startsWith (.string "xy")) =
        document.matches (.comparison "rows.k" .startsWith (.string "xy")) := by
  intro first last items document others
  have dotless : '.' ∉ "rows".toList := by decide
  have held : field? document "rows" = some (.array items) := by rfl
  have named : "k" ≠ "" := by decide
  have unindexed : ∀ segment ∈ (segments "k").head?, index? segment = none := by decide +kernel
  have started := test_fans_out dotless held named unindexed
    (.comparison .startsWith (.string "xy"))
  have excluded := test_fans_out dotless held named unindexed
    (.comparison .noneOf (.array [.string "z", .string "x"]))
  exact ⟨started.1, excluded.1, started.2 others rfl⟩

end Document

end DocStore
