import DocStore.Proofs.Identifiers
import Mathlib.Data.List.Induction

/-!
# Positional segments as field names

A positional segment is meant to select elements of an array. On its way an update also meets
documents, and it makes documents for the fields that are missing; a document takes every segment
for the name of a field. Main statement: an update brings in a field name of the positional form
exactly when one of its paths leads with a positional segment to a document, be it stored or just
made.
-/

namespace DocStore

mutual

/-- No field in the value, at any depth, has a name of the positional form. -/
def Value.PlainNames : Value → Prop
  | .document fields => fieldsPlainNames fields
  | .array items => itemsPlainNames items
  | .javaScriptCodeWithScope _ scope => fieldsPlainNames scope
  | _ => True

/-- The same for all elements of an array. -/
def itemsPlainNames : List Value → Prop
  | [] => True
  | item :: items => item.PlainNames ∧ itemsPlainNames items

/-- The same for all fields of a document, the names included. -/
def fieldsPlainNames : List (String × Value) → Prop
  | [] => True
  | (name, value) :: fields =>
      ¬ Positional name ∧ value.PlainNames ∧ fieldsPlainNames fields

end

/-- An array has plain names exactly when its elements have. -/
theorem itemsPlainNames_iff (items : List Value) :
    itemsPlainNames items ↔ ∀ item ∈ items, item.PlainNames := by
  induction items with
  | nil => simp [itemsPlainNames]
  | cons item items ih => simp [itemsPlainNames, ih]

/-- What is found in a document with plain names has plain names. -/
theorem plainNames_of_field? {fields : Document} (plain : fieldsPlainNames fields) {name : String}
    {value : Value} (found : Document.field? fields name = some value) : value.PlainNames := by
  induction fields with
  | nil => cases found
  | cons field fields ih =>
      obtain ⟨current, first⟩ := field
      obtain ⟨-, content, later⟩ := plain
      rw [Document.field?_cons] at found
      split at found
      · cases found
        exact content
      · exact ih later found

/-- What a step into a document leads to has plain names: a stored value or an empty document. -/
theorem plainNames_getD {fields : Document} (plain : fieldsPlainNames fields) (name : String) :
    ((Document.field? fields name).getD (.document [])).PlainNames := by
  cases found : Document.field? fields name with
  | none => exact trivial
  | some value => exact plainNames_of_field? plain found

/-- Writing a field keeps names plain exactly when its name and its value are. -/
theorem fieldsPlainNames_put_iff {fields : Document} (plain : fieldsPlainNames fields)
    (name : String) (value : Value) :
    fieldsPlainNames (Document.put fields name value) ↔ ¬ Positional name ∧ value.PlainNames := by
  induction fields with
  | nil => simp [Document.put, fieldsPlainNames]
  | cons field fields ih =>
      obtain ⟨current, old⟩ := field
      obtain ⟨ordinary, content, later⟩ := plain
      rw [Document.put]
      split
      · rename_i here
        simp [fieldsPlainNames, ← here, ordinary, later]
      · simp [fieldsPlainNames, ordinary, content, ih later]

/-- A path leads with a positional segment to a document, where an assignment takes the segment for
a field name. A document is entered by the field of the next segment, which is made if it is
missing, and an array by the position or the elements that the segment selects. -/
inductive NamesField (scopes : List ArrayFilter) : List String → Value → Prop where
  | here {segment : String} {rest : List String} {fields : Document}
      (positional : Positional segment) : NamesField scopes (segment :: rest) (.document fields)
  | field {segment : String} {rest : List String} {fields : Document}
      (later : NamesField scopes rest ((Document.field? fields segment).getD (.document []))) :
      NamesField scopes (segment :: rest) (.document fields)
  | position {segment : String} {rest : List String} {items : List Value} {index : Nat}
      (numbered : position? segment = some index)
      (later : NamesField scopes rest (items[index]?.getD .null)) :
      NamesField scopes (segment :: rest) (.array items)
  | element {segment identifier : String} {rest : List String} {items : List Value}
      {selected : Value → Bool} {item : Value} (form : segment = "$[" ++ identifier ++ "]")
      (chosen : SelectedBy scopes identifier selected) (inside : item ∈ items)
      (picked : selected item = true) (later : NamesField scopes rest item) :
      NamesField scopes (segment :: rest) (.array items)

/-- A position that is written in a lengthened array decides what holds of all elements. -/
theorem forall_mem_padded_set_iff {holds : Value → Prop} {items : List Value}
    (before : ∀ item ∈ items, holds item) (null : holds .null) (index : Nat) (child : Value) :
    (∀ item ∈ (padded items (index + 1)).set index child, holds item) ↔ holds child := by
  constructor
  · intro all
    apply all child
    apply List.mem_set
    rw [length_padded]
    omega
  · intro own item inside
    rcases List.mem_or_eq_of_mem_set inside with present | rfl
    · rcases List.mem_append.mp present with old | filled
      · exact before item old
      · exact (List.mem_replicate.mp filled).2 ▸ null
    · exact own

/-- If a change keeps a property of some elements and breaks it for others, then it is kept of all
results exactly when the selected elements are among the former. -/
theorem forall_mem_changed_iff {holds kept : Value → Prop}
    {change : Value → Except Refusal Value} {selected : Value → Bool} {items results : List Value}
    (each : List.Forall₂ (fun item result =>
      if selected item = true then change item = .ok result else result = item) items results)
    (before : ∀ item ∈ items, holds item)
    (exact : ∀ item result, holds item → change item = .ok result → (holds result ↔ kept item)) :
    (∀ result ∈ results, holds result) ↔ ∀ item ∈ items, selected item = true → kept item := by
  induction each with
  | nil => simp
  | @cons item result items results here later ih =>
      obtain ⟨own, others⟩ := List.forall_mem_cons.mp before
      rw [List.forall_mem_cons, List.forall_mem_cons, ih others]
      refine and_congr_left fun _ => ?_
      split at here
      · rename_i chosen
        simp only [chosen, forall_const]
        exact exact item result own here
      · rename_i spared
        simp only [spared, here, own, Bool.false_eq_true, false_implies]

/-- An assignment that succeeds keeps names plain exactly when its path names no field by a
positional segment. The induction follows the path, in the documents and the arrays that it
enters. -/
theorem Value.plainNames_assign_iff {new : Value} {scopes : List ArrayFilter} {path : List String}
    {target result : Value} (newPlain : new.PlainNames) (plain : target.PlainNames)
    (success : Value.assign new scopes path target = .ok result) :
    result.PlainNames ↔ ¬ NamesField scopes path target := by
  induction path generalizing target result with
  | nil =>
      cases success
      simp only [newPlain, true_iff]
      rintro ⟨⟩
  | cons segment rest ih =>
      cases entered_of_assign success with
      | @field fields child assigned =>
          rw [Value.PlainNames] at plain
          rw [Value.PlainNames, fieldsPlainNames_put_iff plain,
            ih (plainNames_getD plain segment) assigned]
          constructor
          · rintro ⟨ordinary, clear⟩ (positional | later)
            · exact ordinary positional
            · exact clear later
          · intro clear
            exact ⟨fun positional => clear (.here positional), fun later => clear (.field later)⟩
      | @position items index child numbered assigned =>
          rw [Value.PlainNames, itemsPlainNames_iff] at plain
          have held : (items[index]?.getD .null).PlainNames := by
            cases found : items[index]? with
            | none => exact trivial
            | some item => exact plain item (List.mem_of_getElem? found)
          rw [Value.PlainNames, itemsPlainNames_iff,
            forall_mem_padded_set_iff plain trivial, ih held assigned]
          refine not_congr ⟨.position numbered, ?_⟩
          intro named
          cases named with
          | position again later =>
              cases numbered.symm.trans again
              exact later
          | element form =>
              rw [position?_of_positional ⟨_, form⟩] at numbered
              cases numbered
      | @elements items results identifier selected form chosen each =>
          rw [Value.PlainNames, itemsPlainNames_iff] at plain
          rw [Value.PlainNames, itemsPlainNames_iff, forall_mem_changed_iff each plain
            fun _ _ held made => ih held made]
          constructor
          · intro clear named
            cases named with
            | position numbered =>
                rw [position?_of_positional ⟨_, form⟩] at numbered
                cases numbered
            | element again other inside picked later =>
                cases eq_of_positional form again
                exact clear _ inside ((chosen.agree other _).trans picked) later
          · intro clear item inside picked later
            exact clear (.element form chosen inside picked later)

namespace Document

/-- The same for an assignment to a whole document. -/
theorem plainNames_assign_iff {document changed : Document} {name : String} {new : Value}
    {scopes : List ArrayFilter} (newPlain : new.PlainNames) (plain : fieldsPlainNames document)
    (success : assign document (segments name) new scopes = .ok changed) :
    fieldsPlainNames changed ↔ ¬ NamesField scopes (segments name) (.document document) := by
  have stored : (Value.document document).PlainNames := plain
  exact Value.plainNames_assign_iff newPlain stored
    (value_assign_of_assign (segments_ne_nil name) success)

/-- An update that succeeds takes a positional segment for a field name exactly when it comes to a
document with one.

For every document in which no field at any depth has a name of the positional form, every update
whose values hold no such name, and all array filters: if the update succeeds, then the documents
that its assignments leave one after the other, the updated one at the end, are all free of such
names exactly when no assignment leads with a positional segment to a document. The induction
follows the assignments. -/
theorem names_stay_plain_iff {document result : Document} {scopes : List ArrayFilter}
    {changes : List (String × Value)} (plain : fieldsPlainNames document)
    (changesPlain : ∀ change ∈ changes, change.2.PlainNames)
    (success : update scopes document changes = .ok result) :
    (∀ before after left, changes = before ++ after → update scopes document before = .ok left →
        fieldsPlainNames left) ↔
      ∀ before name new after left, changes = before ++ (name, new) :: after →
        update scopes document before = .ok left →
        ¬ NamesField scopes (segments name) (.document left) := by
  constructor
  · intro passed before name new after left split reached named
    have newPlain := changesPlain (name, new) (by simp [split])
    rw [split, List.append_cons] at success
    obtain ⟨next, carried, -⟩ := update_append_eq_ok_iff.mp success
    obtain ⟨same, again, last⟩ := update_append_eq_ok_iff.mp carried
    cases reached.symm.trans again
    have leftPlain := passed before ((name, new) :: after) left split reached
    have nextPlain := passed _ after next (by rw [split, List.append_cons]) carried
    exact (plainNames_assign_iff newPlain leftPlain (assign_of_update last)).mp nextPlain named
  · -- The last assignment is judged by the document that those before it left.
    intro clear before
    induction before using List.reverseRec with
    | nil =>
        rintro after left - reached
        cases reached
        exact plain
    | append_singleton before change ih =>
        obtain ⟨name, new⟩ := change
        intro after next split carried
        rw [List.append_assoc, List.singleton_append] at split
        obtain ⟨left, reached, last⟩ := update_append_eq_ok_iff.mp carried
        have newPlain := changesPlain (name, new) (by simp [split])
        exact (plainNames_assign_iff newPlain (ih _ left split reached)
          (assign_of_update last)).mpr (clear before name new after left split reached)

/-- Through an array the segment selects its elements, and the name that is written is that of a
field. -/
theorem names_stay_plain_of_rows :
    update [] [("rows", .array [.document []])] [("rows.$[].n", .null)] =
        .ok [("rows", .array [.document [("n", .null)]])] ∧
      fieldsPlainNames [("rows", .array [.document [("n", .null)]])] := by
  have rows : ¬ Positional "rows" := identifierOf?_eq_none_iff.mp (by decide +kernel)
  have field : ¬ Positional "n" := identifierOf?_eq_none_iff.mp (by decide +kernel)
  have path : segments "rows.$[].n" = ["rows", "$[]", "n"] := by decide +kernel
  have success : update [] [("rows", .array [.document []])] [("rows.$[].n", .null)] =
      .ok [("rows", .array [.document [("n", .null)]])] := rfl
  refine ⟨success, (names_stay_plain_iff ?_ ?_ success).mpr ?_ _ [] _ (List.append_nil _).symm
    success⟩
  · exact ⟨rows, ⟨trivial, trivial⟩, trivial⟩
  · intro change inside
    rw [List.mem_singleton.mp inside]
    exact trivial
  · intro before name new after left split reached named
    obtain ⟨rfl, same⟩ := List.append_eq_singleton_iff.mp split.symm |>.resolve_right (by simp)
    cases same
    cases reached
    rw [path] at named
    cases named with
    | here positional => exact rows positional
    | field inRows =>
        change NamesField [] ["$[]", "n"] (.array [.document []]) at inRows
        cases inRows with
        | position numbered =>
            cases numbered
        | element form chosen inside picked inRow =>
            cases List.mem_singleton.mp inside
            cases inRow with
            | here positional => exact field positional
            | field inField => cases inField

/-- A document without the field gets one, and in it a field called "$[t]", although there is no
array filter of that identifier. Were the field an array, even an empty one, the update would be
refused. -/
theorem positional_segment_stored_as_name :
    fieldsPlainNames [("id", .string "p")] ∧ (Value.boolean true).PlainNames ∧
      update [] [("id", .string "p")] [("tasks.$[t].done", .boolean true)] =
        .ok [("id", .string "p"),
          ("tasks", .document [("$[t]", .document [("done", .boolean true)])])] ∧
      ¬ fieldsPlainNames [("id", .string "p"),
        ("tasks", .document [("$[t]", .document [("done", .boolean true)])])] ∧
      update [] [("id", .string "p"), ("tasks", .array [])] [("tasks.$[t].done", .boolean true)] =
        .error (.unknownIdentifier "t") := by
  have ordinary : ¬ Positional "id" := identifierOf?_eq_none_iff.mp (by decide +kernel)
  refine ⟨⟨ordinary, trivial, trivial⟩, trivial, rfl, ?_, rfl⟩
  rintro ⟨-, -, -, ⟨stored, -⟩, -⟩
  exact stored ⟨"t", rfl⟩

end Document

end DocStore
