import DocStore.Proofs.SortOrder
import DocStore.Proofs.UpdateSteps
import DocStore.Value.WellFormed

/-!
# What an update writes is read at the same path

Updates and filters go down the same dotted paths, each by rules of its own: an update creates what
is missing and lengthens arrays, a filter looks past the element at a position into all the elements
that are documents. Main statement: after an update that succeeds, the first value that a filter
reaches along the last path is the value that was written there, unless the path has a positional
segment, which only updates understand. The value equals itself, as filters compare, if no NaN is in
it.
-/

namespace DocStore

mutual

/-- The value is no NaN, and none is reached in it through arrays and documents. -/
def Value.NaNFree : Value → Prop
  | .document fields => fieldsNaNFree fields
  | .array items => itemsNaNFree items
  | single => ¬ single.IsNaN

/-- No NaN is in the elements of an array. -/
def itemsNaNFree : List Value → Prop
  | [] => True
  | item :: items => item.NaNFree ∧ itemsNaNFree items

/-- No NaN is in the values of a document's fields. -/
def fieldsNaNFree : List (String × Value) → Prop
  | [] => True
  | (_, value) :: fields => value.NaNFree ∧ fieldsNaNFree fields

end

/-- No NaN is in a document exactly when none is in a field. -/
theorem fieldsNaNFree_iff (fields : Document) :
    fieldsNaNFree fields ↔ ∀ field ∈ fields, field.2.NaNFree := by
  induction fields with
  | nil => simp [fieldsNaNFree]
  | cons field fields ih => simp [fieldsNaNFree, ih]

/-- A document is alike another one exactly when each of its fields has one alike there, and there
are as many. -/
theorem fieldsAlike_iff (fields others : Document) :
    fieldsAlike fields others = true ↔
      ∀ field ∈ fields, ∃ other, Document.field? others field.1 = some other ∧
        field.2.alike other = true := by
  induction fields with
  | nil => simp [fieldsAlike]
  | cons field fields ih =>
      obtain ⟨name, value⟩ := field
      rw [fieldsAlike, Bool.and_eq_true, ih, List.forall_mem_cons]
      cases Document.field? others name <;> simp

/-- A scalar is alike itself unless it is a NaN. -/
theorem Value.scalarAlike_self_iff {value : Value} {scalar : Scalar}
    (seen : value.scalar? = some scalar) : value.scalarAlike value = true ↔ ¬ value.IsNaN := by
  rw [scalarAlike, seen]
  cases scalar with
  | number number =>
      simp only [Scalar.equals, Double.equals_self_iff]
      constructor
      · rintro placed ⟨own, rfl, missing⟩
        cases seen
        exact placed missing
      · intro proper
        exact position?_of_scalar? proper seen
  | _ =>
      simp only [Scalar.equals, beq_self_eq_true, true_iff]
      rintro ⟨number, rfl, -⟩
      cases seen

mutual

/-- A value is alike itself, as filters compare, exactly when no NaN is in it. The induction goes
into arrays and documents; all other kinds are compared as scalars. -/
theorem Value.alike_self_iff {value : Value} (formed : value.WellFormed) :
    value.alike value = true ↔ value.NaNFree := by
  cases value with
  | document fields =>
      rw [Value.WellFormed] at formed
      rw [Value.alike, Value.NaNFree, beq_self_eq_true, Bool.true_and, fieldsAlike_iff,
        fieldsNaNFree_iff]
      refine forall₂_congr fun field inside => ?_
      rw [Document.field?_of_mem formed.1 inside]
      simpa using fields_alike_self_iff formed.2 field inside
  | array items =>
      rw [Value.WellFormed] at formed
      rw [Value.alike, Value.NaNFree]
      exact itemsAlike_self_iff formed
  | _ =>
      simp only [Value.alike, Value.NaNFree]
      exact Value.scalarAlike_self_iff rfl

/-- The same for the elements of an array. -/
theorem itemsAlike_self_iff {items : List Value} (formed : itemsWellFormed items) :
    itemsAlike items items = true ↔ itemsNaNFree items := by
  cases items with
  | nil => simp [itemsAlike, itemsNaNFree]
  | cons item items =>
      rw [itemsWellFormed] at formed
      rw [itemsAlike, itemsNaNFree, Bool.and_eq_true, Value.alike_self_iff formed.1,
        itemsAlike_self_iff formed.2]

/-- The same for the value of each field of a document. -/
theorem fields_alike_self_iff {fields : List (String × Value)} (formed : fieldsWellFormed fields) :
    ∀ field ∈ fields, (field.2.alike field.2 = true ↔ field.2.NaNFree) := by
  cases fields with
  | nil => simp
  | cons field fields =>
      obtain ⟨name, value⟩ := field
      rw [fieldsWellFormed] at formed
      rw [List.forall_mem_cons]
      exact ⟨Value.alike_self_iff formed.1, fields_alike_self_iff formed.2⟩

end

/-- Along a path without a positional segment the first value reached after an assignment is the one
that was assigned. The induction follows the path. A document offers the field that was written, and
an array offers the element at the position before it offers any other. -/
theorem Value.head?_reach_assign {new : Value} {scopes : List ArrayFilter} {path : List String}
    {target result : Value} (plain : ∀ segment ∈ path, ¬ Positional segment)
    (success : Value.assign new scopes path target = .ok result) :
    (result.reach path).head? = some new := by
  induction path generalizing target result with
  | nil =>
      cases success
      rw [Value.reach_nil, List.head?_cons]
  | cons segment rest ih =>
      obtain ⟨here, later⟩ := List.forall_mem_cons.mp plain
      cases entered_of_assign success with
      | field assigned =>
          rw [Value.reach, reachField_eq, Document.field?_put, if_pos rfl]
          exact ih later assigned
      | @position items index child numbered assigned =>
          have read := index?_of_position? numbered
          have inside : index < (padded items (index + 1)).length := by
            rw [length_padded]
            omega
          have written := ih later assigned
          simp only [Value.reach, read, List.head?_append, reachItem_eq,
            List.getElem?_set_self inside, written, Option.some_or]
      | elements form => exact absurd ⟨_, form⟩ here

namespace Document

/-- The same for a whole document. -/
theorem head?_reach_assign {document changed : Document} {path : List String} {new : Value}
    {scopes : List ArrayFilter} (nonempty : path ≠ [])
    (plain : ∀ segment ∈ path, ¬ Positional segment)
    (success : assign document path new scopes = .ok changed) :
    (reach changed path).head? = some new := by
  have inside := Value.head?_reach_assign plain (value_assign_of_assign nonempty success)
  cases path with
  | nil => exact absurd rfl nonempty
  | cons head rest =>
      rw [Value.reach] at inside
      exact inside

/-- What the last assignment of an update writes is read by filters at the same path.

For every document, every update of which the last path is not empty and has no positional segment,
and all array filters: if the update succeeds, then the first value reached along the path in the
updated document is the one that was written, and the field is present. If no NaN is in the value,
then the field equals it. Whatever the path crosses on its way makes no difference: fields that are
missing, numbers that are indices or names, arrays that have to be lengthened. -/
theorem written_is_read {document changed : Document} {scopes : List ArrayFilter}
    {changes : List (String × Value)} {name : String} {new : Value} (named : name ≠ "")
    (plain : ∀ segment ∈ segments name, ¬ Positional segment)
    (success : update scopes document (changes ++ [(name, new)]) = .ok changed) :
    (reach changed (route name)).head? = some new ∧
      changed.matches (.presence name true) = true ∧
      (new.WellFormed → new.NaNFree → changed.matches (Filter.eq name new) = true) := by
  obtain ⟨left, -, last⟩ := update_append_eq_ok_iff.mp success
  have path : route name = segments name := by simp [route, named]
  have first := head?_reach_assign (segments_ne_nil name) plain (assign_of_update last)
  rw [← path] at first
  obtain ⟨others, reached⟩ := List.head?_eq_some_iff.mp first
  refine ⟨first, ?_, fun formed proper => ?_⟩
  · simp [Document.matches, Filter.accepts, reached]
  · have itself := (Value.alike_self_iff formed).mpr proper
    simp [Document.matches, Filter.eq, Filter.accepts, Operator.accepts, Value.meets, reached,
      itself]

/-- The path goes to a position that the first assignment made, through a field that is missing, to
a name that looks like an index. -/
theorem written_is_read_of_padded :
    let changed : Document := [("rows", .array [.document [("k", .null)], .null,
      .document [("k", .document [("0", .array [.int32 1])])]])]
    update [] [("rows", .array [.document [("k", .null)]])]
        [("rows.+02", .document []), ("rows.2.k.0", .array [.int32 1])] = .ok changed ∧
      (reach changed (route "rows.2.k.0")).head? = some (.array [.int32 1]) ∧
      changed.matches (.presence "rows.2.k.0" true) = true ∧
      changed.matches (Filter.eq "rows.2.k.0" (.array [.int32 1])) = true := by
  intro changed
  have path : segments "rows.2.k.0" = ["rows", "2", "k", "0"] := by decide +kernel
  have plain : ∀ segment ∈ segments "rows.2.k.0", ¬ Positional segment := by
    rw [path]
    simp only [← identifierOf?_eq_none_iff]
    decide +kernel
  have success : update [] [("rows", .array [.document [("k", .null)]])]
      ([("rows.+02", .document [])] ++ [("rows.2.k.0", .array [.int32 1])]) = .ok changed := rfl
  obtain ⟨first, present, equal⟩ := written_is_read (by decide) plain success
  refine ⟨success, first, present, equal ?_ ?_⟩
  · simp [Value.WellFormed, itemsWellFormed]
  · simp only [Value.NaNFree, itemsNaNFree, and_true]
    rintro ⟨number, same, -⟩
    cases same

end Document

end DocStore
