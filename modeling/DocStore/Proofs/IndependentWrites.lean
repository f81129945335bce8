import DocStore.Proofs.Batches
import DocStore.Proofs.IdScans

/-!
# Writes to different identifiers

A write that is addressed to an identifier looks for its document in the whole collection. Under the
convention it finds the document of that key or none, and so its answer, and what stands under the
key afterwards, depend on nothing but what stood under the key before. Main statement: writes that
are addressed to different identifiers can be carried out in either order. Each answers as it does
alone, success or error, and the store that they leave is the same.
-/

namespace DocStore

namespace Table

variable {α : Type}

/-- The table in which a key is bound to an entry, or to none. -/
def assign (table : Table α) (key : String) : Option α → Table α
  | some entry => table.put key entry
  | none => table.erase key

/-- The assigned key reads as it was assigned, and the others are as before. -/
theorem find?_assign (table : Table α) (key other : String) (entry : Option α) :
    (table.assign key entry).find? other = if key = other then entry else table.find? other := by
  cases entry with
  | some entry => exact table.find?_put key other entry
  | none => exact table.find?_erase key other

/-- Different keys are assigned in either order. -/
theorem assign_assign (table : Table α) {left right : String} (apart : left ≠ right)
    (first second : Option α) :
    (table.assign left first).assign right second =
      (table.assign right second).assign left first := by
  apply eq_of_find?
  intro key
  simp only [find?_assign]
  by_cases isLeft : left = key
  · have notRight : right ≠ key := fun isRight => apart (isLeft.trans isRight.symm)
    rw [if_neg notRight, if_pos isLeft, if_pos isLeft]
  · rw [if_neg isLeft, if_neg isLeft]

end Table

namespace Memory

/-- The store after an effect on what stands under a key of a collection. Without an effect it is
the same store. -/
def assign (memory : Memory) (name key : String) : Option (Option Document) → Memory
  | some entry => memory.withShelf name ((memory.shelf name).assign key entry)
  | none => memory

/-- An effect on a key leaves the other keys of the collection. -/
theorem find?_shelf_assign (memory : Memory) (name : String) {left right : String}
    (apart : left ≠ right) (effect : Option (Option Document)) :
    ((memory.assign name left effect).shelf name).find? right =
      (memory.shelf name).find? right := by
  cases effect with
  | none => rfl
  | some entry => rw [assign, shelf_withShelf, if_pos rfl, Table.find?_assign, if_neg apart]

/-- Effects on different keys come about in either order. -/
theorem assign_assign (memory : Memory) (name : String) {left right : String}
    (apart : left ≠ right) (first second : Option (Option Document)) :
    (memory.assign name left first).assign name right second =
      (memory.assign name right second).assign name left first := by
  cases first with
  | none => rfl
  | some first =>
      cases second with
      | none => rfl
      | some second =>
          simp only [assign, shelf_withShelf, if_pos, withShelf_withShelf]
          rw [Table.assign_assign _ apart]

end Memory

namespace Collection

/-- The writes that are addressed to an identifier. -/
inductive IdWrite where
  | save (document : Document)
  | set (changes : Document)
  | remove

namespace IdWrite

/-- The operation by which a write is carried out. -/
def operation (identifier : String) : IdWrite → Operation
  | .save document => .saveOne identifier document
  | .set changes => .setOne identifier changes
  | .remove => .removeOne (Filter.id identifier)

/-- Carries out a write on a collection. -/
def perform {σ : Type} (collection : Collection σ) (identifier : String) (write : IdWrite) :
    Action σ Unit :=
  (write.operation identifier).perform collection

/-- A document that is saved carries the identifier that the write is addressed to. -/
def Own (identifier : String) : IdWrite → Prop
  | .save document => document.IdentifiedBy identifier
  | _ => True

/-- The answer of a write and its effect, by what stands under its identifier. -/
def outcome (identifier : String) (stored : Option Document) :
    IdWrite → Except StoreError Unit × Option (Option Document)
  | .save document => (.ok (), some (some document))
  | .set changes =>
      match Document.update [] (stored.getD (Filter.id identifier).equalityFields) changes with
      | .ok changed => (.ok (), some (some changed))
      | .error refusal => (.error (.invalidParams refusal), none)
  | .remove =>
      match stored with
      | some _ => (.ok (), some none)
      | none => (.error .notFound, some none)

end IdWrite

end Collection

namespace Shelf

/-- Setting fields under an identifier changes what stands under it, or else a document that holds
the identifier and nothing else. -/
theorem updateOne_id [KeySource] {shelf : Shelf} (conventional : shelf.Conventional)
    (identifier : String) (changes : Document) :
    shelf.updateOne (Filter.id identifier) changes true =
      match Document.update []
          ((shelf.find? identifier).getD (Filter.id identifier).equalityFields) changes with
      | .ok changed => .ok (shelf.put identifier changed)
      | .error refusal => .error (.invalidParams refusal) := by
  rw [updateOne, firstMatch?_id conventional]
  cases found : shelf.find? identifier with
  | some document =>
      cases updated : Document.update [] document changes with
      | ok changed => simp only [Option.map_some, Option.getD_some, updateAt, found, updated]
      | error refusal => simp only [Option.map_some, Option.getD_some, updateAt, found, updated]
  | none =>
      simp only [Option.map_none, Option.getD_none, if_true]
      cases updated : Document.update [] (Filter.id identifier).equalityFields changes with
      | error refusal => rfl
      | ok document =>
          have seeded : Document.IdentifiedBy (Filter.id identifier).equalityFields identifier :=
            rfl
          apply (insert_eq_ok_iff _ _ _).mpr
          rw [keyFor_eq (seeded.update updated)]
          exact ⟨found, rfl⟩

/-- Removing the document of an identifier tells whether there was one. -/
theorem deleteOne_id_eq {shelf : Shelf} (conventional : shelf.Conventional) (identifier : String) :
    shelf.deleteOne (Filter.id identifier) =
      (if (shelf.find? identifier).isSome then 1 else 0, shelf.erase identifier) := by
  have erased := deleteOne_id conventional identifier
  rw [deleteOne, firstMatch?_id conventional] at erased ⊢
  cases found : shelf.find? identifier with
  | some document => rfl
  | none =>
      rw [found] at erased
      exact Prod.ext rfl erased

end Shelf

namespace Collection

namespace IdWrite

section Commutation

variable [KeySource] {memory : Memory} {name : String}

/-- A write under the convention answers by what stands under its identifier, and has its effect
there. There is one case for each kind of write. -/
theorem perform_eq (conventional : (memory.shelf name).Conventional) {identifier : String}
    {write : IdWrite} (own : write.Own identifier) :
    write.perform (inMemory name) identifier memory =
      ((write.outcome identifier ((memory.shelf name).find? identifier)).1,
        memory.assign name identifier
          (write.outcome identifier ((memory.shelf name).find? identifier)).2) := by
  cases write with
  | save document =>
      change Memory.change name (fun shelf => shelf.replaceOne (Filter.id identifier) document true)
        memory = _
      simp only [Memory.change, Shelf.replaceOne_id conventional own]
      rfl
  | set changes =>
      change Memory.change name (fun shelf => shelf.updateOne (Filter.id identifier) changes true)
        memory = _
      simp only [Memory.change, Shelf.updateOne_id conventional, outcome]
      cases Document.update [] (((memory.shelf name).find? identifier).getD
        (Filter.id identifier).equalityFields) changes <;> rfl
  | remove =>
      change (inMemory name).removeOne (Filter.id identifier) memory = _
      simp only [removeOne, inMemory, Memory.backend, Shelf.deleteOne_id_eq conventional, outcome]
      cases (memory.shelf name).find? identifier <;> rfl

/-- A write that saves its own document, if it saves one, keeps the convention. -/
theorem conventional_perform (conventional : (memory.shelf name).Conventional)
    {identifier : String} {write : IdWrite} (own : write.Own identifier) :
    ((write.perform (inMemory name) identifier memory).2.shelf name).Conventional := by
  apply Operation.conventional_perform conventional
  cases write with
  | save document =>
      intro stored inside
      exact ⟨identifier, List.mem_singleton.mp inside ▸ own⟩
  | set changes =>
      intro stored inside
      cases inside
  | remove =>
      intro stored inside
      cases inside

/-- After a write to another identifier a write answers as it does before, and has the same
effect. -/
theorem perform_after (conventional : (memory.shelf name).Conventional) {left right : String}
    (apart : left ≠ right) {first second : IdWrite} (firstOwn : first.Own left)
    (secondOwn : second.Own right) :
    second.perform (inMemory name) right
        (first.perform (inMemory name) left memory).2 =
      ((second.perform (inMemory name) right memory).1,
        (memory.assign name left
          (first.outcome left ((memory.shelf name).find? left)).2).assign name right
            (second.outcome right ((memory.shelf name).find? right)).2) := by
  -- The second write finds its document by the convention, which the first has kept.
  have kept := conventional_perform conventional firstOwn
  rw [perform_eq kept secondOwn, perform_eq conventional firstOwn,
    perform_eq conventional secondOwn, Memory.find?_shelf_assign _ _ apart]

/-- In a collection that satisfies the convention, writes that are addressed to different
identifiers commute. Each answers in either place as it does alone, be it a success or an error, and
in either order they leave the same store, which satisfies the convention again. -/
theorem writes_to_different_identifiers_commute (conventional : (memory.shelf name).Conventional)
    {left right : String} (apart : left ≠ right) {first second : IdWrite}
    (firstOwn : first.Own left) (secondOwn : second.Own right) :
    ∃ (firstAnswer secondAnswer : Except StoreError Unit) (afterFirst afterSecond final : Memory),
      first.perform (inMemory name) left memory = (firstAnswer, afterFirst) ∧
      second.perform (inMemory name) right afterFirst = (secondAnswer, final) ∧
      second.perform (inMemory name) right memory = (secondAnswer, afterSecond) ∧
      first.perform (inMemory name) left afterSecond = (firstAnswer, final) ∧
      (final.shelf name).Conventional := by
  have forward := perform_after conventional apart firstOwn secondOwn
  have backward := perform_after conventional apart.symm secondOwn firstOwn
  rw [Memory.assign_assign _ _ apart.symm] at backward
  have kept := conventional_perform (conventional_perform conventional firstOwn) secondOwn
  rw [forward] at kept
  exact ⟨_, _, _, _, _, rfl, forward, rfl, backward, kept⟩

end Commutation

/-- A path into a text is refused in either order, while another document is removed. -/
theorem writes_to_different_identifiers_commute_of_refusal :
    ∃ memory, Memory.seeded
        [("items", [("id", .string "a"), ("name", .string "x")]),
          ("items", [("id", .string "b")])] = .ok memory ∧
      ∃ afterFirst afterSecond final : Memory,
        (IdWrite.set [("name.first", .null)]).perform (inMemory "items") "a" memory =
          (.error (.invalidParams (.blockedField ["first"] .string)), afterFirst) ∧
        IdWrite.remove.perform (inMemory "items") "b" afterFirst = (.ok (), final) ∧
        IdWrite.remove.perform (inMemory "items") "b" memory = (.ok (), afterSecond) ∧
        (IdWrite.set [("name.first", .null)]).perform (inMemory "items") "a" afterSecond =
          (.error (.invalidParams (.blockedField ["first"] .string)), final) ∧
        (final.shelf "items").keys = ["a"] := by
  obtain ⟨memory, built⟩ : ∃ memory, Memory.seeded
      [("items", [("id", .string "a"), ("name", .string "x")]), ("items", [("id", .string "b")])] =
        .ok memory := ⟨_, rfl⟩
  have conventional := conventional_of_identifiers built ["a", "b"] rfl "items"
  obtain ⟨firstAnswer, secondAnswer, afterFirst, afterSecond, final, first, second, beside, again,
    kept⟩ := writes_to_different_identifiers_commute conventional
      (show "a" ≠ "b" by decide) (show (IdWrite.set [("name.first", .null)]).Own "a" from trivial)
      (show IdWrite.remove.Own "b" from trivial)
  have refused : firstAnswer = .error (.invalidParams (.blockedField ["first"] .string)) := by
    cases built
    cases first
    rfl
  have removed : secondAnswer = .ok () := by
    cases built
    cases beside
    rfl
  have left : (final.shelf "items").keys = ["a"] := by
    cases built
    cases first
    cases second
    decide +kernel
  subst refused
  subst removed
  exact ⟨memory, built, afterFirst, afterSecond, final, first, second, beside, again, left⟩

end IdWrite

end Collection

end DocStore
