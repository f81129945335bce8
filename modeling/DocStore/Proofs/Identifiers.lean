import DocStore.Proofs.UpdateSteps

/-!
# What an update does to an identifier

A document is identified by the string under its identifier field. An update treats that field
like any other, with two obstacles in its way: an identifier that is there can only be assigned a
value identical to it, and no path goes into a string. A string identifier therefore survives
every update that succeeds.

A document without one can be given one, but only by an assignment to the field itself, for a
path through the field leaves a document or an array in it. Main statement: after a successful
update a document is identified by a string exactly when it was before, or the update assigns
that string to the identifier field.
-/

namespace DocStore

/-- There is always at least one piece. -/
theorem splitDots_ne_nil (letters : List Char) : splitDots letters ≠ [] := by
  cases letters with
  | nil => simp [splitDots]
  | cons letter rest =>
      simp only [splitDots]
      split
      · simp
      · split <;> simp

/-- A text of a single piece is that piece: a dot would have begun another. -/
theorem splitDots_eq_singleton {letters piece : List Char}
    (single : splitDots letters = [piece]) : letters = piece := by
  induction letters generalizing piece with
  | nil => simpa [splitDots] using single
  | cons letter rest ih =>
      simp only [splitDots] at single
      split at single
      · have tailEmpty : splitDots rest = [] := (List.cons.inj single).2
        exact absurd tailEmpty (splitDots_ne_nil rest)
      · cases pieces : splitDots rest with
        | nil => exact absurd pieces (splitDots_ne_nil rest)
        | cons first others =>
            rw [pieces] at single
            obtain ⟨rfl, rfl⟩ := List.cons.inj single
            rw [ih pieces]

/-- A name has at least one segment. -/
theorem segments_ne_nil (name : String) : segments name ≠ [] := by
  intro empty
  exact splitDots_ne_nil _ (List.map_eq_nil_iff.mp empty)

/-- A name of a single segment is that segment. -/
theorem segments_eq_singleton {name segment : String} (single : segments name = [segment]) :
    name = segment := by
  obtain ⟨piece, pieces, rfl⟩ := List.map_eq_singleton_iff.mp single
  rw [← splitDots_eq_singleton pieces, String.ofList_toList]

/-- The identifier field has no dots. -/
theorem segments_idField : segments idField = [idField] := by decide +kernel

/-- Only a string is identical to a string. -/
theorem Value.eq_of_identical_string {text : String} {value : Value}
    (same : (Value.string text).identical value = true) : value = .string text := by
  cases value <;> simp_all [Value.identical]

/-- Assigning inside a value leaves a document or an array, never a string. -/
theorem Value.assign_ne_string {new : Value} {scopes : List ArrayFilter} {segment : String}
    {rest : List String} {target result : Value}
    (success : Value.assign new scopes (segment :: rest) target = .ok result) (text : String) :
    result ≠ .string text := by
  cases entered_of_assign success <;> simp

namespace Document

/-- The document carries the string as its identifier. -/
def IdentifiedBy (document : Document) (identifier : String) : Prop :=
  field? document idField = some (.string identifier)

/-- A document carries at most one identifier. -/
theorem IdentifiedBy.unique {document : Document} {identifier other : String}
    (first : document.IdentifiedBy identifier) (second : document.IdentifiedBy other) :
    identifier = other := by
  have same : Value.string identifier = .string other :=
    Option.some.inj (first.symm.trans second)
  exact Value.string.inj same

/-- Assigning at a path writes the field that the path begins with, and no other. -/
theorem field?_assign {document changed : Document} {head : String} {rest : List String}
    {new : Value} {scopes : List ArrayFilter}
    (success : assign document (head :: rest) new scopes = .ok changed) :
    ∃ child,
      Value.assign new scopes rest ((field? document head).getD (.document [])) = .ok child ∧
      ∀ name, field? changed name = if head = name then some child else field? document name := by
  obtain ⟨child, assigned, rfl⟩ := assign_eq_ok_iff.mp success
  exact ⟨child, assigned, fun name => field?_put document head name child⟩

/-- One admitted assignment leaves a document identified by a string exactly when it was so
before, or the identifier field itself is assigned that string.

A path that begins elsewhere does not touch the field. The path of the field alone writes the new
value, which an identifier that was there has to be identical to. A longer path through the field
never leaves a string, and cannot go into one. -/
theorem identifiedBy_assign_iff {document changed : Document} {name : String} {new : Value}
    {scopes : List ArrayFilter} (admitted : document.changesId name new = false)
    (success : assign document (segments name) new scopes = .ok changed) (identifier : String) :
    changed.IdentifiedBy identifier ↔
      document.IdentifiedBy identifier ∨ (name = idField ∧ new = .string identifier) := by
  unfold IdentifiedBy
  cases path : segments name with
  | nil => exact absurd path (segments_ne_nil name)
  | cons head rest =>
      rw [path] at success
      obtain ⟨child, assigned, written⟩ := field?_assign success
      rw [written idField]
      by_cases through : head = idField
      · subst through
        rw [if_pos rfl]
        cases rest with
        | nil =>
            have own : name = idField := segments_eq_singleton path
            have replaced : child = new := by
              simp only [Value.assign, Except.ok.injEq] at assigned
              exact assigned.symm
            subst replaced
            constructor
            · intro carried
              exact Or.inr ⟨own, Option.some.inj carried⟩
            · rintro (carried | ⟨_, assignedString⟩)
              · have kept : (Value.string identifier).identical child = true := by
                  simpa [changesId, own, carried] using admitted
                rw [Value.eq_of_identical_string kept]
              · rw [assignedString]
        | cons segment further =>
            have notOwn : name ≠ idField := by
              intro own
              rw [own, segments_idField] at path
              simp at path
            constructor
            · intro carried
              exact absurd (Option.some.inj carried) (Value.assign_ne_string assigned identifier)
            · rintro (carried | ⟨own, _⟩)
              · rw [carried] at assigned
                cases assigned
              · exact absurd own notOwn
      · have notOwn : name ≠ idField := by
          intro own
          rw [own, segments_idField] at path
          exact through (List.cons.inj path).1.symm
        rw [if_neg through]
        simp [notOwn]

/-- After an update that succeeds a document is identified by a string exactly when it was so
before, or the update assigns that string to the identifier field. The induction follows the
assignments, each of which was admitted against the document that the ones before it left. -/
theorem identifiedBy_update_iff {document result : Document} {scopes : List ArrayFilter}
    {changes : List (String × Value)} (success : update scopes document changes = .ok result)
    (identifier : String) :
    result.IdentifiedBy identifier ↔
      document.IdentifiedBy identifier ∨ (idField, .string identifier) ∈ changes := by
  induction changes generalizing document with
  | nil =>
      cases success
      simp
  | cons change rest ih =>
      obtain ⟨name, new⟩ := change
      simp only [update] at success
      split at success
      · cases success
      · rename_i admitted
        split at success
        · cases success
        · rename_i changed assigned
          have here := identifiedBy_assign_iff (by simpa using admitted) assigned identifier
          rw [ih success, here, List.mem_cons, Prod.mk.injEq, or_assoc, eq_comm (a := idField),
            eq_comm (a := Value.string identifier)]

/-- No assignment removes the identifier field. -/
theorem absent_of_assign {document changed : Document} {name : String} {new : Value}
    {scopes : List ArrayFilter} (success : assign document (segments name) new scopes = .ok changed)
    (absent : field? changed idField = none) : field? document idField = none := by
  cases path : segments name with
  | nil => exact absurd path (segments_ne_nil name)
  | cons head rest =>
      rw [path] at success
      obtain ⟨child, _, written⟩ := field?_assign success
      rw [written idField] at absent
      by_cases through : head = idField
      · rw [if_pos through] at absent
        cases absent
      · rw [if_neg through] at absent
        exact absent

/-- A string is only admitted for the identifier field of a document that has no such field or is
identified by the string already. -/
theorem absent_or_identified {document : Document} {identifier : String}
    (admitted : document.changesId idField (.string identifier) = false) :
    field? document idField = none ∨ document.IdentifiedBy identifier := by
  cases current : field? document idField with
  | none => exact Or.inl rfl
  | some value =>
      have kept : value.identical (.string identifier) = true := by
        simpa [changesId, current] using admitted
      right
      cases value <;> simp [Value.identical] at kept
      rw [IdentifiedBy, current, kept]

/-- The same for an update that succeeds and assigns the string at any point. The induction follows
the assignments. -/
theorem absent_or_identified_of_update {document result : Document} {scopes : List ArrayFilter}
    {changes : List (String × Value)} {identifier : String}
    (success : update scopes document changes = .ok result)
    (assigned : (idField, .string identifier) ∈ changes) :
    field? document idField = none ∨ document.IdentifiedBy identifier := by
  induction changes generalizing document with
  | nil => cases assigned
  | cons change rest ih =>
      obtain ⟨name, new⟩ := change
      simp only [update] at success
      split at success
      · cases success
      · rename_i refused
        have admitted : document.changesId name new = false := by simpa using refused
        split at success
        · cases success
        · rename_i changed stepped
          rcases List.mem_cons.mp assigned with here | later
          · cases here
            exact absent_or_identified admitted
          · rcases ih success later with absent | carried
            · exact Or.inl (absent_of_assign stepped absent)
            · rcases (identifiedBy_assign_iff admitted stepped identifier).mp carried with
                before | ⟨rfl, rfl⟩
              · exact Or.inr before
              · exact absent_or_identified admitted

/-- A string identifier survives every update that succeeds. -/
theorem IdentifiedBy.update {document result : Document} {identifier : String}
    (carried : document.IdentifiedBy identifier) {scopes : List ArrayFilter}
    {changes : List (String × Value)}
    (success : Document.update scopes document changes = .ok result) :
    result.IdentifiedBy identifier :=
  (identifiedBy_update_iff success identifier).mpr (Or.inl carried)

end Document

end DocStore
