import DocStore.Proofs.WrittenPaths
import Mathlib.Data.List.Perm.Subperm

/-!
# Filter equality

Filters compare numbers by their places on the real line, arrays element by element, and documents
as maps. Main statement: the comparison of well-formed values does not depend on which of them
stands on the left. For documents this rests on their names: as many fields as the other document
has, all of them found there, leave no name of the other document over.
-/

namespace DocStore

/-- Equality of numbers does not depend on the side. -/
theorem Double.equals_comm (left right : Double) : left.equals right = right.equals left := by
  rw [Bool.eq_iff_iff, equals_iff, equals_iff]
  constructor
  · rintro ⟨placed, same⟩
    exact ⟨same ▸ placed, same.symm⟩
  · rintro ⟨placed, same⟩
    exact ⟨same ▸ placed, same.symm⟩

/-- Equality of scalars does not depend on the side. -/
theorem Scalar.equals_comm (left right : Scalar) : left.equals right = right.equals left := by
  cases left <;> cases right <;> simp only [equals, Bool.beq_comm, Double.equals_comm]

/-- Nor does it for what values show as scalars. -/
theorem Value.scalarAlike_comm (left right : Value) :
    left.scalarAlike right = right.scalarAlike left := by
  unfold scalarAlike
  cases left.scalar? <;> cases right.scalar? <;> simp only [Scalar.equals_comm]

/-- A field that is found is in the document. -/
theorem Document.mem_of_field? {document : Document} {name : String} {value : Value}
    (found : field? document name = some value) : (name, value) ∈ document := by
  obtain ⟨before, after, rfl, -⟩ := field?_eq_some_iff.mp found
  exact List.mem_append_right before List.mem_cons_self

/-- A field that is found is named. -/
theorem Document.mem_names_of_field? {document : Document} {name : String} {value : Value}
    (found : field? document name = some value) : name ∈ names document :=
  List.mem_map_of_mem (mem_of_field? found)

/-- A document that repeats no name and has as many fields as another one has all the names that the
other one has, if the other one has all of its names. -/
theorem Document.names_subset {fields others : Document} (distinct : (names fields).Nodup)
    (count : fields.length = others.length) (contained : names fields ⊆ names others) :
    names others ⊆ names fields := by
  have short : (names others).length ≤ (names fields).length := by
    simp [names, count]
  exact ((List.subperm_of_subset distinct contained).perm_of_length_le short).symm.subset

mutual

/-- What is alike on one side is alike on the other. The induction goes into arrays and documents;
all other kinds are compared as scalars. -/
theorem Value.alike_symm {left right : Value} (leftFormed : left.WellFormed)
    (rightFormed : right.WellFormed) (alike : left.alike right = true) :
    right.alike left = true := by
  cases left with
  | document fields =>
      cases right with
      | document others =>
          rw [Value.WellFormed] at leftFormed rightFormed
          rw [Value.alike, Bool.and_eq_true, beq_iff_eq, fieldsAlike_iff] at alike ⊢
          obtain ⟨count, found⟩ := alike
          have contained : Document.names fields ⊆ Document.names others := by
            intro name inside
            obtain ⟨field, listed, rfl⟩ := List.mem_map.mp inside
            obtain ⟨other, present, -⟩ := found field listed
            exact Document.mem_names_of_field? present
          have covered := Document.names_subset leftFormed.1 count contained
          refine ⟨count.symm, fun other inside => ?_⟩
          obtain ⟨field, listed, same⟩ := List.mem_map.mp (covered (List.mem_map_of_mem inside))
          obtain ⟨value, present, likeness⟩ := found field listed
          rw [same, Document.field?_of_mem rightFormed.1 inside] at present
          cases present
          have otherFormed := (fieldsWellFormed_iff others).mp rightFormed.2 other inside
          refine ⟨field.2, same ▸ Document.field?_of_mem leftFormed.1 listed, ?_⟩
          exact fields_alike_symm leftFormed.2 field listed other.2 otherFormed likeness
      | _ => cases alike
  | array items =>
      cases right with
      | array others =>
          rw [Value.WellFormed] at leftFormed rightFormed
          rw [Value.alike] at alike ⊢
          exact itemsAlike_symm leftFormed rightFormed alike
      | _ => cases alike
  | _ =>
      simp only [Value.alike] at alike
      rw [Value.scalarAlike_comm] at alike
      simpa only [Value.alike] using alike

/-- The same for the elements of arrays. -/
theorem itemsAlike_symm {items others : List Value} (itemsFormed : itemsWellFormed items)
    (othersFormed : itemsWellFormed others) (alike : itemsAlike items others = true) :
    itemsAlike others items = true := by
  cases items with
  | nil =>
      cases others with
      | nil => rfl
      | cons other others => cases alike
  | cons item items =>
      cases others with
      | nil => cases alike
      | cons other others =>
          rw [itemsWellFormed] at itemsFormed othersFormed
          rw [itemsAlike, Bool.and_eq_true] at alike ⊢
          exact ⟨Value.alike_symm itemsFormed.1 othersFormed.1 alike.1,
            itemsAlike_symm itemsFormed.2 othersFormed.2 alike.2⟩

/-- The same for the value of each field of a document. -/
theorem fields_alike_symm {fields : List (String × Value)} (formed : fieldsWellFormed fields) :
    ∀ field ∈ fields, ∀ other : Value, other.WellFormed → field.2.alike other = true →
      other.alike field.2 = true := by
  cases fields with
  | nil => simp
  | cons field fields =>
      obtain ⟨name, value⟩ := field
      rw [fieldsWellFormed] at formed
      rw [List.forall_mem_cons]
      exact ⟨fun other otherFormed => Value.alike_symm formed.1 otherFormed,
        fields_alike_symm formed.2⟩

end

/-- Filter equality does not depend on the side. -/
theorem Value.alike_comm {left right : Value} (leftFormed : left.WellFormed)
    (rightFormed : right.WellFormed) : left.alike right = right.alike left :=
  Bool.eq_iff_iff.mpr
    ⟨Value.alike_symm leftFormed rightFormed, Value.alike_symm rightFormed leftFormed⟩

end DocStore
