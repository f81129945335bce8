import DocStore.Update
import DocStore.Value.WellFormed

/-!
# Updates keep documents well-formed

An update that succeeds on a well-formed document, and assigns well-formed values, leaves a
well-formed document, whatever paths it takes through documents and arrays.
-/

namespace DocStore

/-- What a change keeps of every element, it keeps of the elements that are selected, and the
others stay as they are. -/
theorem forall_mem_changeSelected {holds : Value → Prop}
    {change : Value → Except Refusal Value}
    (kept : ∀ item changed, holds item → change item = .ok changed → holds changed)
    {marked : List (Bool × Value)} {changed : List Value}
    (before : ∀ entry ∈ marked, holds entry.2)
    (success : changeSelected change marked = .ok changed) : ∀ item ∈ changed, holds item := by
  induction marked generalizing changed with
  | nil => cases success; simp
  | cons entry rest ih =>
      obtain ⟨selected, item⟩ := entry
      have here := before _ List.mem_cons_self
      have later : ∀ other ∈ rest, holds other.2 := fun other inside =>
        before other (List.mem_cons_of_mem _ inside)
      simp only [changeSelected] at success
      split at success
      · cases success
      · rename_i first head
        split at success
        · cases success
        · rename_i others tail
          cases success
          have firstHolds : holds first := by
            split at head
            · exact kept item first here head
            · cases head
              exact here
          intro other inside
          rcases List.mem_cons.1 inside with same | present
          · exact same ▸ firstHolds
          · exact ih later tail other present

/-- The elements that a selection marks are elements of the array. -/
theorem mem_of_select {scopes : List ArrayFilter} {items : List Value} {segment : String}
    {marked : List (Bool × Value)} (chosen : select scopes items segment = .ok (.elements marked))
    {entry : Bool × Value} (inside : entry ∈ marked) : entry.2 ∈ items := by
  unfold select at chosen
  split at chosen
  · cases chosen
    obtain ⟨item, present, rfl⟩ := List.mem_map.1 inside
    exact present
  · split at chosen
    · cases chosen
      obtain ⟨item, present, rfl⟩ := List.mem_map.1 inside
      exact present
    · cases chosen
  · split at chosen <;> cases chosen

/-- Assigning a well-formed value inside a well-formed one gives a well-formed value. -/
theorem Value.WellFormed.assign {new : Value} {scopes : List ArrayFilter} (newFormed : new.WellFormed)
    {path : List String} {target result : Value} (formed : target.WellFormed)
    (success : Value.assign new scopes path target = .ok result) : result.WellFormed := by
  induction path generalizing target result with
  | nil =>
      cases target <;> cases success <;> exact newFormed
  | cons segment rest ih =>
      cases target with
      | document fields =>
          simp only [Value.assign] at success
          rw [wellFormed_document] at formed
          split at success
          · cases success
          · rename_i child assigned
            cases success
            rw [wellFormed_document]
            refine formed.put segment (ih ?_ assigned)
            cases found : Document.field? fields segment with
            | none => simp
            | some value => exact formed.field? found
      | array items =>
          simp only [Value.assign] at success
          rw [wellFormed_array] at formed
          split at success
          · cases success
          · rename_i index chosen
            split at success
            · cases success
            · rename_i child assigned
              cases success
              rw [wellFormed_array]
              have childFormed : child.WellFormed := by
                refine ih ?_ assigned
                cases found : items[index]? with
                | none => simp [Value.WellFormed]
                | some value => exact formed value (List.mem_of_getElem? found)
              intro item inside
              rcases List.mem_or_eq_of_mem_set inside with present | same
              · simp only [padded, List.mem_append, List.mem_replicate] at present
                rcases present with old | ⟨_, null⟩
                · exact formed item old
                · simp [null, Value.WellFormed]
              · exact same ▸ childFormed
          · rename_i marked chosen
            split at success
            · cases success
            · rename_i changed assigned
              cases success
              rw [wellFormed_array]
              exact forall_mem_changeSelected (fun item changed here done => ih here done)
                (fun entry inside => formed _ (mem_of_select chosen inside)) assigned
      | _ => cases success

namespace Document

/-- Assigning a well-formed value inside a well-formed document gives a well-formed document. -/
theorem WellFormed.assign {document result : Document} {path : List String} {new : Value}
    {scopes : List ArrayFilter} (formed : document.WellFormed) (newFormed : new.WellFormed)
    (success : Document.assign document path new scopes = .ok result) : result.WellFormed := by
  cases path with
  | nil => cases success; exact formed
  | cons segment rest =>
      simp only [Document.assign] at success
      split at success
      · cases success
      · rename_i child assigned
        cases success
        refine formed.put segment (newFormed.assign ?_ assigned)
        cases found : Document.field? document segment with
        | none => simp
        | some value => exact formed.field? found

/-- An update with well-formed values keeps a document well-formed. -/
theorem WellFormed.update {document result : Document} {scopes : List ArrayFilter}
    {changes : List (String × Value)} (formed : document.WellFormed)
    (changesFormed : ∀ change ∈ changes, change.2.WellFormed)
    (success : Document.update scopes document changes = .ok result) : result.WellFormed := by
  induction changes generalizing document with
  | nil => cases success; exact formed
  | cons change rest ih =>
      obtain ⟨name, new⟩ := change
      simp only [Document.update] at success
      split at success
      · cases success
      · split at success
        · cases success
        · rename_i changed assigned
          exact ih (formed.assign (changesFormed _ List.mem_cons_self) assigned)
            (fun other inside => changesFormed other (List.mem_cons_of_mem _ inside)) success

end Document

end DocStore
