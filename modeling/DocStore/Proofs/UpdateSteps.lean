import DocStore.Update
import Mathlib.Data.List.Forall2

/-!
# The steps of an update

An update makes its assignments one after the other, each to the document that the ones before it
left, and an assignment goes down its path segment by segment. Main statement: an assignment that
succeeds enters a document by a field, or an array by a position or by some of its elements. Which
elements these are is said by a positional segment, of the form `$[identifier]`: all of them if the
identifier is empty, otherwise those that the first array filter of the identifier accepts.
-/

namespace DocStore

/-- The segment has the form `$[identifier]`, where the identifier may be empty. -/
def Positional (segment : String) : Prop :=
  ∃ identifier, segment = "$[" ++ identifier ++ "]"

/-- The identifier of a segment is what stands between its brackets. -/
theorem identifierOf?_eq_some_iff {segment identifier : String} :
    identifierOf? segment = some identifier ↔ segment = "$[" ++ identifier ++ "]" := by
  constructor
  · intro found
    simp only [identifierOf?] at found
    split at found
    · rename_i inner letters
      split at found
      · rename_i closed
        cases found
        obtain ⟨kept, rfl⟩ := List.getLast?_eq_some_iff.mp closed
        apply String.toList_injective
        simp [letters]
      · cases found
    · cases found
  · rintro rfl
    simp [identifierOf?]

/-- A segment is positional exactly when an identifier is read from it. -/
theorem identifierOf?_eq_none_iff {segment : String} :
    identifierOf? segment = none ↔ ¬ Positional segment := by
  simp only [Positional, ← identifierOf?_eq_some_iff, Option.eq_none_iff_forall_ne_some,
    not_exists, ne_eq]

/-- A positional segment has one identifier. -/
theorem eq_of_positional {segment identifier other : String}
    (form : segment = "$[" ++ identifier ++ "]") (again : segment = "$[" ++ other ++ "]") :
    identifier = other :=
  Option.some.inj ((identifierOf?_eq_some_iff.mpr form).symm.trans
    (identifierOf?_eq_some_iff.mpr again))

/-- The elements that an identifier selects: all for the empty one, otherwise those that the first
array filter of the identifier accepts. -/
def SelectedBy (scopes : List ArrayFilter) (identifier : String) (selected : Value → Bool) : Prop :=
  (identifier = "" ∧ ∀ item, selected item = true) ∨
    identifier ≠ "" ∧ ∃ earlier scope later, scopes = earlier ++ scope :: later ∧
      scope.identifier = identifier ∧ (∀ other ∈ earlier, other.identifier ≠ identifier) ∧
      ∀ item, selected item = item.matches scope.filter

/-- A positional segment pairs each element with whether it is selected. -/
theorem select_of_selectedBy {scopes : List ArrayFilter} {identifier : String}
    {selected : Value → Bool} (chosen : SelectedBy scopes identifier selected)
    (items : List Value) :
    select scopes items ("$[" ++ identifier ++ "]") =
      .ok (.elements (items.map fun item => (selected item, item))) := by
  have found := identifierOf?_eq_some_iff.mpr (Eq.refl ("$[" ++ identifier ++ "]"))
  rcases chosen with ⟨rfl, all⟩ | ⟨named, earlier, scope, later, rfl, own, others, accepted⟩
  · simp only [select, found, all]
  · have first : (earlier ++ scope :: later).find? (fun scope => scope.identifier == identifier) =
        some scope := by
      refine List.find?_eq_some_iff_append.mpr ⟨by simp [own], earlier, later, rfl, ?_⟩
      intro other inside
      simpa using others other inside
    simp only [select, found, first, accepted]

/-- An identifier that no array filter has selects nothing: the segment is refused. -/
theorem select_of_unknown {scopes : List ArrayFilter} {identifier : String}
    (named : identifier ≠ "") (unknown : ∀ scope ∈ scopes, scope.identifier ≠ identifier)
    (items : List Value) :
    select scopes items ("$[" ++ identifier ++ "]") = .error (.unknownIdentifier identifier) := by
  have found := identifierOf?_eq_some_iff.mpr (Eq.refl ("$[" ++ identifier ++ "]"))
  have absent : scopes.find? (fun scope => scope.identifier == identifier) = none := by
    apply List.find?_eq_none.mpr
    intro scope inside
    simpa using unknown scope inside
  simp only [select, found, absent]

/-- An identifier either selects elements or is unknown. -/
theorem selectedBy_or_unknown (scopes : List ArrayFilter) (identifier : String) :
    (∃ selected, SelectedBy scopes identifier selected) ∨
      identifier ≠ "" ∧ ∀ scope ∈ scopes, scope.identifier ≠ identifier := by
  by_cases named : identifier = ""
  · exact Or.inl ⟨fun _ => true, Or.inl ⟨named, fun _ => rfl⟩⟩
  · cases found : scopes.find? (fun scope => scope.identifier == identifier) with
    | none =>
        refine Or.inr ⟨named, fun scope inside => ?_⟩
        simpa using List.find?_eq_none.mp found scope inside
    | some scope =>
        obtain ⟨own, earlier, later, split, others⟩ := List.find?_eq_some_iff_append.mp found
        refine Or.inl ⟨fun item => item.matches scope.filter, Or.inr ⟨named, earlier, scope, later,
          split, by simpa using own, ?_, fun _ => rfl⟩⟩
        intro other inside
        simpa using others other inside

/-- An identifier tells of each value whether it selects it. -/
theorem SelectedBy.agree {scopes : List ArrayFilter} {identifier : String}
    {selected other : Value → Bool} (first : SelectedBy scopes identifier selected)
    (second : SelectedBy scopes identifier other) (item : Value) : selected item = other item := by
  have same := (select_of_selectedBy first [item]).symm.trans (select_of_selectedBy second [item])
  simpa using same

/-- A position is read as an index. -/
theorem index?_of_position? {segment : String} {index : Nat}
    (numbered : position? segment = some index) : index? segment = some index := by
  simp only [position?] at numbered
  split at numbered
  · split at numbered
    · cases numbered
      assumption
    · cases numbered
  · cases numbered

/-- A positional segment denotes no position. -/
theorem position?_of_positional {segment : String} (positional : Positional segment) :
    position? segment = none := by
  obtain ⟨identifier, rfl⟩ := positional
  simp [position?, index?, isDigit]

/-- A segment that is not positional selects the position that it denotes. -/
theorem select_of_not_positional {scopes : List ArrayFilter} {items : List Value}
    {segment : String} (ordinary : ¬ Positional segment) {selection : Selection}
    (made : select scopes items segment = .ok selection) :
    ∃ index, position? segment = some index ∧ selection = .position index := by
  simp only [select, identifierOf?_eq_none_iff.mpr ordinary] at made
  split at made
  · rename_i index numbered
    cases made
    exact ⟨index, numbered, rfl⟩
  · cases made

/-- A change of the selected elements succeeds exactly when it does on each of them, and leaves the
others. -/
theorem changeSelected_eq_ok_iff {change : Value → Except Refusal Value} {selected : Value → Bool}
    {items results : List Value} :
    changeSelected change (items.map fun item => (selected item, item)) = .ok results ↔
      List.Forall₂ (fun item result =>
        if selected item = true then change item = .ok result else result = item) items results := by
  induction items generalizing results with
  | nil =>
      simp only [List.map_nil, changeSelected, Except.ok.injEq, List.forall₂_nil_left_iff]
      exact eq_comm
  | cons item rest ih =>
      rw [List.map_cons, changeSelected]
      constructor
      · intro success
        split at success
        · cases success
        · rename_i changed here
          split at success
          · cases success
          · rename_i others later
            cases success
            refine List.Forall₂.cons ?_ (ih.mp later)
            split at here
            · rwa [if_pos ‹_›]
            · cases here
              rw [if_neg ‹_›]
      · intro related
        cases related with
        | cons here later =>
            rw [ih.mpr later]
            split at here
            · simp [*]
            · simp [*]

/-- How an assignment of a value along a path that begins with a segment enters a value and what it
leaves. A document is entered by the field of the segment, which is made if it is missing. An array
is entered by the position that the segment denotes, and lengthened with nulls if it ends before, or
by the elements that the identifier of the segment selects. Nothing else can be entered. -/
inductive Value.Entered (new : Value) (scopes : List ArrayFilter) (segment : String)
    (rest : List String) : Value → Value → Prop where
  | field {fields : Document} {child : Value}
      (assigned : Value.assign new scopes rest
        ((Document.field? fields segment).getD (.document [])) = .ok child) :
      Entered new scopes segment rest (.document fields)
        (.document (Document.put fields segment child))
  | position {items : List Value} {index : Nat} {child : Value}
      (numbered : position? segment = some index)
      (assigned : Value.assign new scopes rest (items[index]?.getD .null) = .ok child) :
      Entered new scopes segment rest (.array items)
        (.array ((padded items (index + 1)).set index child))
  | elements {items results : List Value} {identifier : String} {selected : Value → Bool}
      (form : segment = "$[" ++ identifier ++ "]")
      (chosen : SelectedBy scopes identifier selected)
      (each : List.Forall₂ (fun item result =>
        if selected item = true then Value.assign new scopes rest item = .ok result
        else result = item) items results) :
      Entered new scopes segment rest (.array items) (.array results)

/-- An assignment that succeeds enters its target in one of these ways. -/
theorem Value.entered_of_assign {new : Value} {scopes : List ArrayFilter} {segment : String}
    {rest : List String} {target result : Value}
    (success : Value.assign new scopes (segment :: rest) target = .ok result) :
    Entered new scopes segment rest target result := by
  cases target with
  | document fields =>
      simp only [Value.assign] at success
      split at success
      · cases success
      · rename_i child assigned
        cases success
        exact .field assigned
  | array items =>
      simp only [Value.assign] at success
      by_cases positional : Positional segment
      · obtain ⟨identifier, rfl⟩ := positional
        rcases selectedBy_or_unknown scopes identifier with ⟨selected, chosen⟩ | ⟨named, unknown⟩
        · simp only [select_of_selectedBy chosen] at success
          split at success
          · cases success
          · rename_i results each
            cases success
            exact .elements rfl chosen (changeSelected_eq_ok_iff.mp each)
        · simp only [select_of_unknown named unknown] at success
          cases success
      · cases made : select scopes items segment with
        | error refusal =>
            rw [made] at success
            cases success
        | ok selection =>
            obtain ⟨index, numbered, rfl⟩ := select_of_not_positional positional made
            simp only [made] at success
            split at success
            · cases success
            · rename_i child assigned
              cases success
              exact .position numbered assigned
  | _ => cases success

namespace Document

/-- An assignment succeeds exactly when the rest of its path can be applied to what the first segment
leads to, and writes the outcome there. -/
theorem assign_eq_ok_iff {document changed : Document} {head : String} {rest : List String}
    {new : Value} {scopes : List ArrayFilter} :
    document.assign (head :: rest) new scopes = .ok changed ↔
      ∃ child,
        Value.assign new scopes rest ((field? document head).getD (.document [])) = .ok child ∧
        changed = put document head child := by
  rw [assign]
  constructor
  · intro success
    split at success
    · cases success
    · rename_i child done
      cases success
      exact ⟨child, done, rfl⟩
  · rintro ⟨child, done, rfl⟩
    rw [done]

/-- An assignment to a whole document is one to the value that the document is. -/
theorem value_assign_of_assign {document changed : Document} {path : List String} {new : Value}
    {scopes : List ArrayFilter} (nonempty : path ≠ [])
    (success : document.assign path new scopes = .ok changed) :
    Value.assign new scopes path (.document document) = .ok (.document changed) := by
  cases path with
  | nil => exact absurd rfl nonempty
  | cons head rest =>
      obtain ⟨child, assigned, rfl⟩ := assign_eq_ok_iff.mp success
      rw [Value.assign, assigned]

/-- An update succeeds exactly when its first part does, and its second part on what that left. -/
theorem update_append_eq_ok_iff {document result : Document} {scopes : List ArrayFilter}
    {before after : List (String × Value)} :
    update scopes document (before ++ after) = .ok result ↔
      ∃ left, update scopes document before = .ok left ∧ update scopes left after = .ok result := by
  induction before generalizing document with
  | nil => simp [update]
  | cons change before ih =>
      obtain ⟨name, new⟩ := change
      rw [List.cons_append, update, update]
      split
      · simp
      · split
        · simp
        · exact ih

/-- An update of one assignment that succeeds has made it. -/
theorem assign_of_update {document result : Document} {scopes : List ArrayFilter} {name : String}
    {new : Value} (success : update scopes document [(name, new)] = .ok result) :
    assign document (segments name) new scopes = .ok result := by
  rw [update] at success
  split at success
  · cases success
  · split at success
    · cases success
    · rename_i changed assigned
      cases success
      exact assigned

end Document

end DocStore
