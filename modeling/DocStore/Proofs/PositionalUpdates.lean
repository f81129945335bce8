import DocStore.Memory.Shelf
import DocStore.Proofs.Identifiers

/-!
# Positional updates

A positional segment has the form `$[identifier]` and selects elements of an array: all of them if
the identifier is empty, otherwise those that the first array filter of the identifier accepts. Main
statement: an assignment through a positional segment into an array that a field holds changes the
selected elements, each as the remaining path changes it on its own, and nothing else. Without an
array filter of the identifier it is refused, whatever the array holds.
-/

namespace DocStore

/-- An assignment through a positional segment succeeds on an array exactly when the identifier is
known and the remaining path can be applied to every selected element. -/
theorem Value.assign_positional_eq_ok_iff {new : Value} {scopes : List ArrayFilter}
    {identifier : String} {rest : List String} {items : List Value} {result : Value} :
    Value.assign new scopes (("$[" ++ identifier ++ "]") :: rest) (.array items) = .ok result ↔
      ∃ selected results, SelectedBy scopes identifier selected ∧
        List.Forall₂ (fun item changed =>
          if selected item = true then Value.assign new scopes rest item = .ok changed
          else changed = item) items results ∧
        result = .array results := by
  constructor
  · intro success
    cases Value.entered_of_assign success with
    | position numbered =>
        rw [position?_of_positional ⟨identifier, rfl⟩] at numbered
        cases numbered
    | elements form chosen each =>
        cases eq_of_positional form rfl
        exact ⟨_, _, chosen, each, rfl⟩
  · rintro ⟨selected, results, chosen, each, rfl⟩
    rw [Value.assign]
    simp only [select_of_selectedBy chosen, changeSelected_eq_ok_iff.mpr each]

namespace Document

/-- An update of a single path of several segments assigns the value at the path. Such a path is not
that of the identifier alone. -/
theorem update_singleton {document : Document} {scopes : List ArrayFilter} {path : String}
    {new : Value} {head next : String} {rest : List String}
    (leads : segments path = head :: next :: rest) :
    document.update scopes [(path, new)] = document.assign (head :: next :: rest) new scopes := by
  have notOwn : path ≠ idField := by
    rintro rfl
    rw [segments_idField] at leads
    cases leads
  have admitted : document.changesId path new = false := by simp [changesId, notOwn]
  rw [update, admitted, if_neg Bool.false_ne_true, leads]
  cases document.assign (head :: next :: rest) new scopes <;> rfl

/-- An assignment through a positional segment, on every document of which the field that the path
begins with is an array, for every value and all array filters.

It succeeds exactly when the identifier of the segment is empty or some array filter has it, and the
remaining path can be applied to each selected element; then the array keeps its length and order.
Selected are all elements for the empty identifier, and otherwise those that the first array filter
of the identifier accepts as they were before. Each of them becomes what the remaining path makes of
it alone, which is the new value if nothing remains of the path, and the others stay as they are.
Before and behind the array nothing changes in the document.

If no array filter has the identifier, the assignment is refused for it, even if the array is empty,
and so is an update of a stored document. -/
theorem positional_update_outcome {document : Document} {field : String} {items : List Value}
    (holds : field? document field = some (.array items)) {path identifier : String}
    {rest : List String} (leads : segments path = field :: ("$[" ++ identifier ++ "]") :: rest)
    (new : Value) (scopes : List ArrayFilter) :
    (∀ changed, document.update scopes [(path, new)] = .ok changed ↔
      ∃ selected results before after, SelectedBy scopes identifier selected ∧
        List.Forall₂ (fun item result =>
          if selected item = true then
            Value.assign new scopes rest item = .ok result ∧ (rest = [] → result = new)
          else result = item) items results ∧
        document = before ++ (field, .array items) :: after ∧ field ∉ names before ∧
        changed = before ++ (field, .array results) :: after) ∧
    (identifier ≠ "" → (∀ scope ∈ scopes, scope.identifier ≠ identifier) →
      document.update scopes [(path, new)] = .error (.unknownIdentifier identifier) ∧
      ∀ (shelf : Shelf) (key : String), shelf.find? key = some document →
        shelf.updateAt [(path, new)] scopes key =
          .error (.invalidParams (.unknownIdentifier identifier))) := by
  constructor
  · intro changed
    have remaining : ∀ item result,
        (Value.assign new scopes rest item = .ok result ∧ (rest = [] → result = new)) ↔
          Value.assign new scopes rest item = .ok result := by
      intro item result
      refine and_iff_left_of_imp fun outcome => ?_
      rintro rfl
      exact (Except.ok.inj outcome).symm
    rw [update_singleton leads, assign_eq_ok_iff, holds, Option.getD_some]
    simp only [Value.assign_positional_eq_ok_iff, remaining]
    constructor
    · rintro ⟨child, ⟨selected, results, chosen, each, rfl⟩, rfl⟩
      obtain ⟨before, after, rfl, absent⟩ := field?_eq_some_iff.mp holds
      exact ⟨selected, results, before, after, chosen, each, rfl, absent, put_append absent _ _⟩
    · rintro ⟨selected, results, before, after, chosen, each, rfl, absent, rfl⟩
      exact ⟨.array results, ⟨selected, results, chosen, each, rfl⟩, (put_append absent _ _).symm⟩
  · intro named unknown
    have refused : document.update scopes [(path, new)] =
        .error (.unknownIdentifier identifier) := by
      rw [update_singleton leads, assign, holds, Option.getD_some, Value.assign,
        select_of_unknown named unknown]
    refine ⟨refused, fun shelf key stored => ?_⟩
    rw [Shelf.updateAt, stored]
    simp only [refused]

/-- Of three rows the first array filter called "low" accepts one, and every tag of that row is
written. A second filter of the name does not count. A name without a filter is refused. -/
theorem positional_update_outcome_of_rows :
    Document.update
        [⟨"low", .comparison "k" .lt (.int32 2)⟩, ⟨"low", .comparison "k" .gt (.int32 2)⟩]
        [("id", .string "p"), ("rows", .array [
          .document [("k", .int64 1), ("tags", .array [.string "a", .null])],
          .document [("k", .int32 3), ("tags", .array [.string "c"])],
          .string "k"]), ("n", .null)]
        [("rows.$[low].tags.$[]", .string "z")] =
      .ok [("id", .string "p"), ("rows", .array [
          .document [("k", .int64 1), ("tags", .array [.string "z", .string "z"])],
          .document [("k", .int32 3), ("tags", .array [.string "c"])],
          .string "k"]), ("n", .null)] ∧
      Document.update [⟨"low", .everything⟩] [("rows", .array [])] [("rows.$[high]", .null)] =
        .error (.unknownIdentifier "high") := by
  have nested : segments "rows.$[low].tags.$[]" = ["rows", "$[low]", "tags", "$[]"] := by
    decide +kernel
  have single : segments "rows.$[high]" = ["rows", "$[high]"] := by decide +kernel
  constructor
  · refine ((positional_update_outcome rfl nested _ _).1 _).mpr
      ⟨fun item => item.matches (.comparison "k" .lt (.int32 2)), _, [("id", .string "p")],
        [("n", .null)], Or.inr ⟨by decide, [], _, _, rfl, rfl, ?_, fun _ => rfl⟩, ?_, rfl, ?_, rfl⟩
    · intro other inside
      cases inside
    · refine .cons ?_ (.cons ?_ (.cons ?_ .nil))
      · exact ⟨rfl, fun nothing => by cases nothing⟩
      · rfl
      · rfl
    · decide
  · refine ((positional_update_outcome rfl single _ _).2 (by decide) ?_).1
    intro scope inside
    rw [List.mem_singleton.mp inside]
    decide

end Document

end DocStore
