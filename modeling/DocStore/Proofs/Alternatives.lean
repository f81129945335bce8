import DocStore.Proofs.FilterEquality
import DocStore.Proofs.QueryMeaning

/-!
# Alternatives as equalities

The membership operators go through what a field offers and look for it among the alternatives. An
equality goes through the same values for one operand. Main statement: membership is the disjunction
of the equalities with the alternatives, and its opposite is the conjunction of the inequalities.
The alternatives are compared from the other side than an operand of an equality is; that this makes
no difference is the symmetry of filter equality.

Containment of a single value is equality as well, and containment of several values only gets
easier when some of them are left out.
-/

namespace DocStore

/-- What a path reaches in a well-formed value is well-formed. The induction follows the path. -/
theorem Value.WellFormed.of_mem_reach {path : List String} {value found : Value}
    (formed : value.WellFormed) (inside : found ∈ value.reach path) : found.WellFormed := by
  induction path generalizing value with
  | nil =>
      rw [Value.reach_nil, List.mem_singleton] at inside
      exact inside ▸ formed
  | cons segment rest ih =>
      have ofField {fields : Document} (formed : Document.WellFormed fields)
          (inside : found ∈ reachField fields segment rest) : found.WellFormed := by
        rw [reachField_eq] at inside
        split at inside
        · rename_i value present
          exact ih (formed.field? present) inside
        · cases inside
      cases value with
      | document fields => exact ofField ((Value.wellFormed_document fields).mp formed) inside
      | array items =>
          rw [Value.wellFormed_array] at formed
          rcases List.mem_append.mp inside with atPosition | across
          · split at atPosition
            · rw [reachItem_eq] at atPosition
              split at atPosition
              · rename_i item present
                exact ih (formed item (List.mem_of_getElem? present)) atPosition
              · cases atPosition
            · cases atPosition
          · rw [reachDocuments_eq] at across
            obtain ⟨item, kept, reached⟩ := List.mem_flatMap.mp across
            obtain ⟨listed, shown⟩ := List.mem_filter.mp kept
            have itemFormed := formed item listed
            cases item with
            | document fields =>
                exact ofField ((Value.wellFormed_document fields).mp itemFormed) reached
            | _ => cases shown
      | _ => cases inside

/-- What a path reaches in a well-formed document is well-formed. -/
theorem Document.WellFormed.of_mem_reach {path : List String} {document : Document} {found : Value}
    (formed : document.WellFormed) (inside : found ∈ Document.reach document path) :
    found.WellFormed := by
  cases path with
  | nil => cases inside
  | cons segment rest =>
      have whole : found ∈ (Value.document document).reach (segment :: rest) := inside
      exact ((Value.wellFormed_document document).mpr formed).of_mem_reach whole

/-- The values that a comparison looks at in a reached value: the value itself, and if it is an
array its elements. -/
def Value.offered : Value → List Value
  | .array items => .array items :: items
  | single => [single]

theorem Value.meets_eq (value : Value) (test : Value → Bool) :
    value.meets test = value.offered.any test := by
  cases value <;> simp [meets, offered]

/-- A well-formed value offers well-formed values. -/
theorem Value.WellFormed.of_mem_offered {value candidate : Value} (formed : value.WellFormed)
    (inside : candidate ∈ value.offered) : candidate.WellFormed := by
  cases value with
  | array items =>
      rcases List.mem_cons.mp inside with rfl | listed
      · exact formed
      · exact (Value.wellFormed_array items).mp formed candidate listed
  | _ => exact List.mem_singleton.mp inside ▸ formed

variable {found : List Value}

/-- Membership is equality with one of the alternatives. -/
theorem memberHit_eq_any (formed : ∀ value ∈ found, value.WellFormed) (operand : Value)
    (alternatives : ∀ choice ∈ operand.alternatives, choice.WellFormed) :
    memberHit operand found = operand.alternatives.any fun choice =>
      found.any fun value => value.meets (Value.alike · choice) := by
  rw [Bool.eq_iff_iff]
  simp only [memberHit, Value.meets_eq, List.any_eq_true]
  constructor
  · rintro ⟨value, reached, candidate, offered, choice, listed, likeness⟩
    have candidateFormed := (formed value reached).of_mem_offered offered
    refine ⟨choice, listed, value, reached, candidate, offered, ?_⟩
    rwa [Value.alike_comm candidateFormed (alternatives choice listed)]
  · rintro ⟨choice, listed, value, reached, candidate, offered, likeness⟩
    have candidateFormed := (formed value reached).of_mem_offered offered
    refine ⟨value, reached, candidate, offered, choice, listed, ?_⟩
    rwa [Value.alike_comm (alternatives choice listed) candidateFormed]

/-- Needles that stand together in an array still do when some are left out. -/
theorem containsHit_of_subset {needles fewer : List Value} (subset : fewer ⊆ needles)
    (hit : containsHit (.array needles) found = true) :
    containsHit (.array fewer) found = true := by
  simp only [containsHit, List.any_eq_true] at hit ⊢
  obtain ⟨value, reached, together⟩ := hit
  refine ⟨value, reached, ?_⟩
  split at together
  · rw [List.all_eq_true] at together ⊢
    exact fun needle inside => together needle (subset inside)
  · cases together

/-- How membership and containment in a field are made of equalities with it, given what is accepted
on a subject. -/
structure ReadAsEqualities (accepts : Filter → Bool) (field : String) : Prop where
  anyOf : ∀ choices : List Value, (∀ choice ∈ choices, choice.WellFormed) →
    accepts (.comparison field .anyOf (.array choices)) =
      accepts (.any (choices.map (.comparison field .eq)))
  noneOf : ∀ choices : List Value, (∀ choice ∈ choices, choice.WellFormed) →
    accepts (.comparison field .noneOf (.array choices)) =
      accepts (.all (choices.map (.comparison field .ne)))
  anyOfSingle : ∀ operand : Value, operand.WellFormed → (∀ items, operand ≠ .array items) →
    accepts (.comparison field .anyOf operand) = accepts (.comparison field .eq operand)
  noneOfSingle : ∀ operand : Value, operand.WellFormed → (∀ items, operand ≠ .array items) →
    accepts (.comparison field .noneOf operand) = accepts (.comparison field .ne operand)
  containsSingle : ∀ operand : Value, (∀ text, operand ≠ .string text) →
    (∀ items, operand ≠ .array items) →
      accepts (.comparison field .contains operand) = accepts (.comparison field .eq operand)
  notContainsSingle : ∀ operand : Value, (∀ text, operand ≠ .string text) →
    (∀ items, operand ≠ .array items) →
      accepts (.comparison field .notContains operand) = accepts (.comparison field .ne operand)
  containsFewer : ∀ needles fewer : List Value, fewer ⊆ needles →
    accepts (.comparison field .contains (.array needles)) = true →
      accepts (.comparison field .contains (.array fewer)) = true

/-- The alternatives of what is no array are the operand alone. -/
theorem Value.alternatives_of_not_array {operand : Value}
    (single : ∀ items, operand ≠ .array items) :
    operand.alternatives = [operand] := by
  cases operand with
  | array items => exact absurd rfl (single items)
  | _ => rfl

/-- It is enough that a field reaches well-formed values only. -/
theorem readAsEqualities_of_wellFormed {reached : String → List Value} {field : String}
    (formed : ∀ value ∈ reached field, value.WellFormed) :
    ReadAsEqualities (Filter.accepts reached) field where
  anyOf choices choicesFormed := by
    have read := memberHit_eq_any formed (.array choices) choicesFormed
    rw [Filter.accepts_any, List.any_map]
    exact read
  noneOf choices choicesFormed := by
    have read := memberHit_eq_any formed (.array choices) choicesFormed
    rw [Filter.accepts_all, List.all_map, Filter.accepts, Operator.accepts, read,
      List.not_any_eq_all_not]
    rfl
  anyOfSingle operand operandFormed single := by
    have alternatives := Value.alternatives_of_not_array single
    simp only [Filter.accepts, Operator.accepts]
    rw [memberHit_eq_any formed operand (by simpa [alternatives] using operandFormed), alternatives]
    simp
  noneOfSingle operand operandFormed single := by
    have alternatives := Value.alternatives_of_not_array single
    simp only [Filter.accepts, Operator.accepts]
    rw [memberHit_eq_any formed operand (by simpa [alternatives] using operandFormed), alternatives]
    simp
  containsSingle operand notText notArray := by
    simp only [Filter.accepts, Operator.accepts, Mongo.containsHit_eq notText notArray]
  notContainsSingle operand notText notArray := by
    simp only [Filter.accepts, Operator.accepts, Mongo.containsHit_eq notText notArray]
  containsFewer needles fewer subset hit := containsHit_of_subset subset hit

/-- Membership operators are lists of equalities.

For every field path, on every document and on every array element that name their fields once: to
be any of some alternatives is to equal one of them, and to be none of them is to differ from each.
With an operand that is no array, membership, containment if the operand is no text, and equality
are the same, and so are their opposites. What contains several needles contains any of them alone.
The operands may be of any kind, with documents, arrays and a NaN in them. -/
theorem membership_read_as_equalities (field : String) :
    (∀ document : Document, document.WellFormed → ReadAsEqualities document.matches field) ∧
      ∀ element : Value, element.WellFormed → ReadAsEqualities element.matches field :=
  ⟨fun _ formed => readAsEqualities_of_wellFormed fun _ => formed.of_mem_reach,
    fun _ formed => readAsEqualities_of_wellFormed fun _ => formed.of_mem_reach⟩

/-- A document is among the alternatives with its fields in another order, a number in another
width, and another kind that filters take for null. A NaN is never among them, and an element that
is one differs from it. -/
theorem membership_read_as_equalities_of_reordered :
    let nan : Value := .double ⟨0x7ff8000000000000⟩
    let document : Document :=
      [("tags", .array [.document [("a", .int32 1), ("b", .null)], nan, .string "x"])]
    let choices : List Value := [nan, .document [("b", .minKey), ("a", .int64 1)]]
    document.matches (.comparison "tags" .anyOf (.array choices)) =
        document.matches (.any (choices.map (.comparison "tags" .eq))) ∧
      document.matches (.comparison "tags" .anyOf (.array choices)) = true ∧
      nan.matches (.comparison "" .noneOf nan) = nan.matches (.comparison "" .ne nan) ∧
      nan.matches (.comparison "" .noneOf nan) = true := by
  intro nan document choices
  have documentFormed : document.WellFormed := by
    simp [document, nan, Document.WellFormed, Document.names, fieldsWellFormed, itemsWellFormed,
      Value.WellFormed]
  have choicesFormed : ∀ choice ∈ choices, choice.WellFormed := by
    simp [choices, nan, Document.names, fieldsWellFormed, Value.WellFormed]
  have nanFormed : nan.WellFormed := trivial
  have nanSingle : ∀ items, nan ≠ .array items := by
    intro items
    simp [nan]
  have onDocument := (membership_read_as_equalities "tags").1 document documentFormed
  have onElement := (membership_read_as_equalities "").2 nan nanFormed
  exact ⟨onDocument.anyOf choices choicesFormed, by decide +kernel,
    onElement.noneOfSingle nan nanFormed nanSingle, by decide +kernel⟩

end DocStore
