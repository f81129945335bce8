import DocStore.Memory
import DocStore.Mongo.Query

/-!
# Filters that are refused

A pattern can be made of a text only, so a translation refuses the operators that look for a prefix
or a suffix when their operand is anything else. Main statement: it refuses nothing else, and its
error tells of the first such comparison, in reading order and at any depth. The store in memory
refuses no filter at all: there these comparisons never hold. So the two take filters alike exactly
as far as every prefix and suffix is a text.
-/

namespace DocStore

/-- The name, in errors, of an operator whose operand has to be a text. -/
def Operator.textLabel? : Operator → Option String
  | .startsWith => some "starts_with"
  | .endsWith => some "ends_with"
  | _ => none

/-- The refusal of a comparison whose operand would have to be a text and is not. -/
def operandRefusal? : Operator × Value → Option Refusal
  | (_, .string _) => none
  | (operator, operand) => operator.textLabel?.map (Refusal.textRequired · operand.kind)

/-- Nothing is refused exactly when an operand is a text wherever it has to be. -/
theorem operandRefusal?_eq_none_iff (operator : Operator) (operand : Value) :
    operandRefusal? (operator, operand) = none ↔
      (operator.textLabel? ≠ none → ∃ text, operand = .string text) := by
  cases operand with
  | string text => simp [operandRefusal?]
  | _ => simp [operandRefusal?]

mutual

/-- The operators of a filter with their operands, at any depth, in reading order. -/
def Filter.comparisons : Filter → List (Operator × Value)
  | .all parts => comparisonsOf parts
  | .any parts => comparisonsOf parts
  | .negation part => part.comparisons
  | .presence _ _ => []
  | .comparison _ operator operand => [(operator, operand)]

/-- The operators of several filters with their operands, in reading order. -/
def comparisonsOf : List Filter → List (Operator × Value)
  | [] => []
  | part :: parts => part.comparisons ++ comparisonsOf parts

end

/-- The refusal of the first comparison of a filter that is refused. -/
def Filter.refusal? (filter : Filter) : Option Refusal :=
  filter.comparisons.findSome? operandRefusal?

/-- A filter is not refused exactly when every operand is a text wherever it has to be. -/
theorem Filter.refusal?_eq_none_iff (filter : Filter) :
    filter.refusal? = none ↔
      ∀ operator operand, (operator, operand) ∈ filter.comparisons →
        operator.textLabel? ≠ none → ∃ text, operand = .string text := by
  simp only [refusal?, List.findSome?_eq_none_iff, Prod.forall, operandRefusal?_eq_none_iff]

namespace Mongo

/-- The error of an attempt that fails. -/
def failure {α : Type} : Except StoreError α → Option StoreError
  | .ok _ => none
  | .error error => some error

theorem failure_eq_some_iff {α : Type} (attempt : Except StoreError α) (error : StoreError) :
    failure attempt = some error ↔ attempt = .error error := by
  cases attempt <;> simp [failure]

/-- A condition cannot be made exactly when its operand is refused. There is one case for each
operator and each kind of operand. -/
theorem failure_conditionOf (operator : Operator) (operand : Value) :
    failure (conditionOf operator operand) =
      (operandRefusal? (operator, operand)).map StoreError.invalidParams := by
  cases operator <;> cases operand <;> rfl

mutual

/-- A translation fails with the refusal of the first comparison that is refused. -/
theorem failure_queryIn (scope : Option String) :
    ∀ filter : Filter,
      failure (queryIn scope filter) = filter.refusal?.map StoreError.invalidParams
  | .all [] => rfl
  | .all (part :: parts) => by
      have failed := failure_queriesIn scope (part :: parts)
      simp only [queryIn, Filter.refusal?, Filter.comparisons, ← failed]
      cases queriesIn scope (part :: parts) <;> rfl
  | .any [] => rfl
  | .any (part :: parts) => by
      have failed := failure_queriesIn scope (part :: parts)
      simp only [queryIn, Filter.refusal?, Filter.comparisons, ← failed]
      cases queriesIn scope (part :: parts) <;> rfl
  | .negation part => by
      have failed := failure_queryIn scope part
      simp only [queryIn, Filter.refusal?, Filter.comparisons] at failed ⊢
      rw [← failed]
      cases queryIn scope part <;> rfl
  | .presence _ _ => rfl
  | .comparison field operator operand => by
      have failed := failure_conditionOf operator operand
      simp only [queryIn, Filter.refusal?, Filter.comparisons, List.findSome?_singleton, ← failed]
      cases conditionOf operator operand <;> rfl

/-- Translations in a row fail with the refusal of the first comparison that is refused. -/
theorem failure_queriesIn (scope : Option String) :
    ∀ parts : List Filter,
      failure (queriesIn scope parts) =
        ((comparisonsOf parts).findSome? operandRefusal?).map StoreError.invalidParams
  | [] => rfl
  | part :: parts => by
      have first : failure (queryIn scope part) =
          (part.comparisons.findSome? operandRefusal?).map StoreError.invalidParams :=
        failure_queryIn scope part
      have others := failure_queriesIn scope parts
      simp only [queriesIn, comparisonsOf, List.findSome?_append, Option.map_or, ← first, ← others]
      cases queryIn scope part with
      | error error => rfl
      | ok query => cases queriesIn scope parts <;> rfl

end

/-- A translation fails exactly on the filters with a prefix or a suffix that is not a text, and
tells of the first. A store in memory takes every filter, so the two refuse alike exactly when every
prefix and suffix of the filter is a text. -/
theorem refused_alike_iff [KeySource] (scope : Option String) (filter : Filter) :
    (∀ error, queryIn scope filter = .error error ↔
        ∃ refusal, filter.refusal? = some refusal ∧ error = .invalidParams refusal) ∧
      ((∀ name memory error, queryIn scope filter = .error error ↔
          (Memory.backend.count name filter memory).1 = .error error) ↔
        ∀ operator operand, (operator, operand) ∈ filter.comparisons →
          operator.textLabel? ≠ none → ∃ text, operand = .string text) := by
  have failed (error : StoreError) : queryIn scope filter = .error error ↔
      ∃ refusal, filter.refusal? = some refusal ∧ error = .invalidParams refusal := by
    rw [← failure_eq_some_iff, failure_queryIn, Option.map_eq_some_iff]
    simp only [eq_comm]
  refine ⟨failed, ?_⟩
  rw [← Filter.refusal?_eq_none_iff]
  constructor
  · intro alike
    cases refused : filter.refusal? with
    | none => rfl
    | some refusal =>
        have told := (failed (.invalidParams refusal)).mpr ⟨refusal, refused, rfl⟩
        have answered := (alike "" Memory.empty _).mp told
        cases answered
  · intro accepted name memory error
    rw [failed error, accepted]
    simp [Memory.backend]

/-- A prefix that is a number cannot be translated, while a store in memory answers that no document
has it. -/
theorem numeric_prefix_refused_by_translation_only :
    let filter : Filter := .comparison "n" .startsWith (.int32 3)
    let document : Document := [(idField, .string "a"), ("n", .int32 3)]
    queryIn none filter = .error (.invalidParams (.textRequired "starts_with" .int32)) ∧
      ∃ memory, Memory.seeded [("items", document)] = .ok memory ∧
        (Memory.backend.count "items" filter memory).1 = .ok 0 := by
  intro filter document
  refine ⟨by rfl, Memory.empty.withShelf "items" (Table.empty.put "a" document), by rfl, ?_⟩
  have uncounted : Shelf.count (Table.empty.put "a" document) filter = 0 := by decide +kernel
  exact congrArg Except.ok uncounted

end Mongo

end DocStore
