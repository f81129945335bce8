import DocStore.Value

/-!
# Well-formed values

A document names each of its fields once, and so does every document inside it. Values that are
built by writing fields one after the other are well-formed, and writing a well-formed value into
a well-formed document keeps it so.
-/

namespace DocStore

mutual

/-- A value in which no document repeats a field name. -/
def Value.WellFormed : Value → Prop
  | .document fields => (Document.names fields).Nodup ∧ fieldsWellFormed fields
  | .array items => itemsWellFormed items
  | .javaScriptCodeWithScope _ scope => (Document.names scope).Nodup ∧ fieldsWellFormed scope
  | _ => True

/-- All the elements of an array are well-formed. -/
def itemsWellFormed : List Value → Prop
  | [] => True
  | item :: items => item.WellFormed ∧ itemsWellFormed items

/-- All the values of a document's fields are well-formed. -/
def fieldsWellFormed : List (String × Value) → Prop
  | [] => True
  | (_, value) :: fields => value.WellFormed ∧ fieldsWellFormed fields

end

/-- A document that names each field once and holds well-formed values only. -/
def Document.WellFormed (document : Document) : Prop :=
  (Document.names document).Nodup ∧ fieldsWellFormed document

theorem itemsWellFormed_iff (items : List Value) :
    itemsWellFormed items ↔ ∀ item ∈ items, item.WellFormed := by
  induction items with
  | nil => simp [itemsWellFormed]
  | cons item items ih => simp [itemsWellFormed, ih]

theorem fieldsWellFormed_iff (fields : List (String × Value)) :
    fieldsWellFormed fields ↔ ∀ field ∈ fields, field.2.WellFormed := by
  induction fields with
  | nil => simp [fieldsWellFormed]
  | cons field fields ih => simp [fieldsWellFormed, ih]

@[simp] theorem Value.wellFormed_document (fields : Document) :
    (Value.document fields).WellFormed ↔ Document.WellFormed fields := by
  simp only [Value.WellFormed, Document.WellFormed]

@[simp] theorem Value.wellFormed_array (items : List Value) :
    (Value.array items).WellFormed ↔ ∀ item ∈ items, item.WellFormed := by
  rw [Value.WellFormed, itemsWellFormed_iff]

namespace Document

/-- The document without fields is well-formed. -/
@[simp] theorem wellFormed_nil : WellFormed [] := by
  simp [WellFormed, names, fieldsWellFormed]

/-- A field of a document that repeats no name is the one that is found by its name. -/
theorem field?_of_mem {document : Document} (distinct : (names document).Nodup)
    {field : String × Value} (inside : field ∈ document) :
    field? document field.1 = some field.2 := by
  obtain ⟨before, after, rfl⟩ := List.append_of_mem inside
  refine field?_eq_some_iff.mpr ⟨before, after, rfl, ?_⟩
  simp only [names, List.map_append, List.map_cons] at distinct ⊢
  intro earlier
  exact (List.nodup_append.mp distinct).2.2 _ earlier _ List.mem_cons_self rfl

/-- What a well-formed document holds is well-formed. -/
theorem WellFormed.field? {document : Document} (formed : document.WellFormed) {name : String}
    {value : Value} (found : Document.field? document name = some value) : value.WellFormed := by
  induction document with
  | nil => cases found
  | cons field rest ih =>
      obtain ⟨current, first⟩ := field
      obtain ⟨distinct, content⟩ := formed
      simp only [fieldsWellFormed] at content
      rw [field?_cons] at found
      split at found
      · cases found
        exact content.1
      · exact ih ⟨(List.nodup_cons.1 distinct).2, content.2⟩ found

/-- Writing a field brings in no value but its own. -/
theorem fieldsWellFormed_put {document : Document} (name : String) {value : Value}
    (content : fieldsWellFormed document) (formed : value.WellFormed) :
    fieldsWellFormed (put document name value) := by
  induction document with
  | nil => exact ⟨formed, trivial⟩
  | cons field rest ih =>
      obtain ⟨current, old⟩ := field
      simp only [fieldsWellFormed] at content
      simp only [put]
      split
      · exact ⟨formed, content.2⟩
      · exact ⟨content.1, ih content.2⟩

/-- Writing a well-formed value keeps a document well-formed. -/
theorem WellFormed.put {document : Document} (formed : document.WellFormed) (name : String)
    {value : Value} (valueFormed : value.WellFormed) :
    (Document.put document name value).WellFormed := by
  refine ⟨?_, fieldsWellFormed_put name formed.2 valueFormed⟩
  rw [names_put]
  split
  · exact formed.1
  · rename_i absent
    refine List.nodup_append.2 ⟨formed.1, by simp, ?_⟩
    intro first present second last same
    rw [List.mem_singleton.1 last] at same
    exact absent (same ▸ present)

end Document

end DocStore
