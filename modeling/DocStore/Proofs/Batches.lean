import DocStore.Proofs.IdScans

/-!
# Batches and their steps

A batch is one call of the backend, and the writes in it could be as many calls. In memory the two
come to the same: the same answer and the same documents in every collection, whether all the
writes succeed or one of them fails, and whatever a failing write has done by then. So every
operation that submits a batch is the sequence of its single operations, up to the first failure.
-/

namespace DocStore

/-- Carries out actions one after the other, up to the first that fails. Its error is the answer,
and what it leaves is what remains. -/
def Action.inTurn {σ : Type} : List (Action σ Unit) → Action σ Unit
  | [], state => (.ok (), state)
  | first :: rest, state =>
      match first state with
      | (.ok (), next) => inTurn rest next
      | (.error error, next) => (.error error, next)

/-- Carries out a write of a batch by a call of its own. -/
def Write.perform {σ : Type} (collection : Collection σ) : Write → Action σ Unit
  | .replaceOne filter replacement upsert =>
      collection.backend.replaceOne collection.name filter replacement upsert
  | .updateMany filter changes scopes =>
      collection.backend.updateMany collection.name filter changes scopes

/-- A batch holds the writes that were added to it, in order. -/
theorem Batch.writes_foldl_add (batch : Batch) (writes : List Write) :
    (writes.foldl Batch.add batch).writes = batch.writes ++ writes := by
  induction writes generalizing batch with
  | nil => exact (List.append_nil _).symm
  | cons first rest ih =>
      rw [List.foldl_cons, ih, Batch.add, List.append_assoc, List.singleton_append]

namespace Shelf

/-- A replacement in an empty collection has nothing to clash with. -/
theorem replaceOne_empty [KeySource] (filter : Filter) (replacement : Document) (upsert : Bool) :
    ∃ changed, replaceOne Table.empty filter replacement upsert = .ok changed := by
  cases upsert with
  | false => exact ⟨Table.empty, rfl⟩
  | true =>
      have added : insert Table.empty replacement = .ok _ :=
        (insert_eq_ok_iff _ _ _).mpr ⟨Table.find?_empty _, rfl⟩
      exact ⟨_, added⟩

end Shelf

namespace Memory

/-- Of two exchanges of one collection the later one counts. -/
theorem withShelf_withShelf (memory : Memory) (name : String) (first second : Shelf) :
    (memory.withShelf name first).withShelf name second = memory.withShelf name second := by
  unfold withShelf
  congr 1
  apply Table.eq_of_find?
  intro other
  simp only [Table.find?_put]
  split <;> rfl

/-- Exchanging a collection for itself changes nothing, if there is anything in it. -/
theorem withShelf_self {memory : Memory} {name : String}
    (inhabited : memory.shelf name ≠ Table.empty) :
    memory.withShelf name (memory.shelf name) = memory := by
  obtain ⟨shelves⟩ := memory
  simp only [withShelf, Memory.shelf] at inhabited ⊢
  cases bound : shelves.find? name with
  | none =>
      -- A collection that does not exist reads as an empty one, and an exchange would create it.
      rw [bound] at inhabited
      exact absurd rfl inhabited
  | some shelf =>
      congr 1
      apply Table.eq_of_find?
      intro other
      rw [Table.find?_put]
      split
      · rename_i same
        rw [← same, bound]
        rfl
      · rfl

end Memory

namespace Collection

section Steps

variable [KeySource] {name : String}

/-- A write by a call of its own answers and changes the collection as it does within a batch. A
replacement that fails leaves the store alone, and then there is a document that it clashes with. -/
theorem perform_eq (write : Write) (memory : Memory) :
    write.perform (inMemory name) memory =
      (((memory.shelf name).write write).1,
        memory.withShelf name ((memory.shelf name).write write).2) := by
  cases write with
  | updateMany filter changes scopes => rfl
  | replaceOne filter replacement upsert =>
      -- A batch puts the collection back also when the replacement fails, a single call does not.
      -- The stores would differ if the collection did not exist yet, and then nothing fails.
      change Memory.change name (fun shelf => shelf.replaceOne filter replacement upsert) memory = _
      simp only [Memory.change, Shelf.write]
      cases answered : (memory.shelf name).replaceOne filter replacement upsert with
      | ok changed => rfl
      | error error =>
          have inhabited : memory.shelf name ≠ Table.empty := by
            intro empty
            obtain ⟨changed, succeeds⟩ := Shelf.replaceOne_empty filter replacement upsert
            rw [empty, succeeds] at answered
            cases answered
          simp only [Memory.withShelf_self inhabited]

/-- Writes carried out in turn answer and change the collection as the batch of them does. The
induction follows the writes behind the first. -/
theorem inTurn_perform (first : Write) (rest : List Write) (memory : Memory) :
    Action.inTurn ((first :: rest).map (Write.perform (inMemory name))) memory =
      ((Shelf.writeAll (first :: rest) (memory.shelf name)).1,
        memory.withShelf name (Shelf.writeAll (first :: rest) (memory.shelf name)).2) := by
  induction rest generalizing first memory with
  | nil =>
      simp only [List.map_cons, List.map_nil, Action.inTurn, perform_eq, Shelf.writeAll]
      cases (memory.shelf name).write first with
      | mk answer changed => cases answer <;> rfl
  | cons second rest ih =>
      rw [List.map_cons, Action.inTurn, perform_eq, Shelf.writeAll]
      cases (memory.shelf name).write first with
      | mk answer changed =>
          cases answer with
          | error error => rfl
          | ok _ =>
              simp only
              rw [ih, Memory.shelf_withShelf, if_pos rfl, Memory.withShelf_withShelf]

/-- Writes submitted as one batch are the writes carried out in turn. -/
theorem submit_eq_inTurn (name : String) (writes : List Write) :
    (inMemory name).submit writes =
      Action.inTurn (writes.map (Write.perform (inMemory name))) := by
  funext memory
  cases writes with
  | nil => rfl
  | cons first rest => exact (inTurn_perform first rest memory).symm

/-- Documents saved as one batch are the documents saved in turn, when there are as many as
identifiers. -/
theorem saveAll_eq_inTurn (name : String) {identifiers : List String} {documents : List Document}
    (same : identifiers.length = documents.length) :
    (inMemory name).saveAll identifiers documents =
      Action.inTurn (List.zipWith (inMemory name).saveOne identifiers documents) := by
  have saves : List.zipWith (inMemory name).saveOne identifiers documents =
      (List.zipWith Write.save identifiers documents).map (Write.perform (inMemory name)) := by
    rw [List.map_zipWith]
    rfl
  funext memory
  rw [saves, ← submit_eq_inTurn, saveAll]
  cases identifiers with
  | nil => rfl
  | cons identifier identifiers =>
      cases documents with
      | nil => cases same
      | cons document documents => simp [same]

/-- A batch equals its steps. Writes that are added to a batch and submitted answer and change the
store as the calls of each of them in turn, up to the first that fails. The same holds of documents
saved together and of mass updates submitted together. Nothing is saved when identifiers or
documents are missing, nor when their numbers differ, which is refused. -/
theorem batches_equal_steps (name : String) :
    (∀ writes : List Write, (writes.foldl Batch.add {}).submit (inMemory name) =
      Action.inTurn (writes.map (Write.perform (inMemory name)))) ∧
    (∀ (identifiers : List String) (documents : List Document) (memory : Memory),
      (inMemory name).saveAll identifiers documents memory =
        if identifiers = [] ∨ documents = [] then (.ok (), memory)
        else if identifiers.length = documents.length then
          Action.inTurn (List.zipWith (inMemory name).saveOne identifiers documents) memory
        else
          (.error (.invalidParams (.unequalLengths identifiers.length documents.length)),
            memory)) ∧
    (∀ updates : List MassUpdate, (inMemory name).updateEach updates =
      Action.inTurn (updates.map fun update =>
        Memory.backend.updateMany name update.filter update.changes update.scopes)) := by
  refine ⟨?_, ?_, ?_⟩
  · intro writes
    rw [Batch.submit, Batch.writes_foldl_add, List.nil_append, submit_eq_inTurn]
  · intro identifiers documents memory
    split
    · rename_i missing
      rcases missing with none | none <;> simp [saveAll, none]
    · rename_i present
      rw [not_or] at present
      split
      · rename_i same
        rw [saveAll_eq_inTurn name same]
      · rename_i different
        simp [saveAll, present, different]
  · intro updates
    rw [updateEach, submit_eq_inTurn, List.map_map]
    rfl

end Steps

/-- A mass update that fails half way ends a batch: the document before the one that cannot be
updated stays updated, and the save behind the update is not carried out. -/
example : Shelf.writeAll
    [.updateMany .everything [("n.x", .null)] [], Write.save "c" [("id", .string "c")]]
    (Table.ofList [("a", [("id", .string "a")]),
      ("b", [("id", .string "b"), ("n", .boolean true)])]) =
  (.error (.invalidParams (.blockedField ["x"] .boolean)),
    Table.ofList [("a", [("id", .string "a"), ("n", .document [("x", .null)])]),
      ("b", [("id", .string "b"), ("n", .boolean true)])]) := by
  rfl

end Collection

end DocStore
