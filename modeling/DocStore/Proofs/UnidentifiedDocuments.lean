import DocStore.Proofs.Convention
import DocStore.Proofs.MassUpdates

/-!
# Documents without an identifier

A store takes documents without a string identifier as well, and keeps them under keys that it
makes up. The key is chosen when a document is stored; an update changes the document where it
stands. An update that supplies a missing identifier therefore leaves the document under a key
that is not its identifier, and a second document with this identifier can be stored beside it.

This is the only way in which keys and identifiers come apart. They agree in all states that a
run of writes passes through exactly when no document without an identifier is assigned a string
identifier other than its key. An identifier that is there cannot be changed. Nothing is said about
how the keys are made up: each write of a run has a source of its own, so that two writes to equal
stores may well draw different keys.
-/

namespace DocStore

/-- The writes of a backend to a collection, with their arguments. -/
inductive StoreWrite where
  | replaceOne (filter : Filter) (replacement : Document) (upsert : Bool)
  | updateOne (filter : Filter) (changes : Document) (upsert : Bool)
  | updateMany (filter : Filter) (changes : Document) (scopes : List ArrayFilter)
  | bulkWrite (writes : List Write)
  | deleteOne (filter : Filter)
  | deleteMany (filter : Filter)
  | dropCollection
deriving Repr

/-- An update of a stored document in its place: its key, the document as it was before, and the
assignments, all of which succeed. -/
structure InPlace where
  key : String
  document : Document
  changes : Document
deriving Repr

/-- A write of a run with the collection it goes to, and the source of the keys that it draws. -/
structure RunStep where
  keys : KeySource
  name : String
  write : StoreWrite

/-- No document without an identifier is assigned a string identifier other than its key. -/
def Settled (updates : List InPlace) : Prop :=
  ∀ update ∈ updates, Document.field? update.document idField = none →
    ∀ identifier, (idField, .string identifier) ∈ update.changes → identifier = update.key

namespace Shelf

/-- The updates that are carried out in place when several documents are to be updated in turn. -/
def updatesInPlace (changes : Document) (scopes : List ArrayFilter)
    (bindings : List (String × Document)) : List InPlace :=
  (reached changes scopes bindings).map fun binding => ⟨binding.1, binding.2, changes⟩

/-- The updates that a write of a batch carries out in place. -/
def writeInPlace (shelf : Shelf) : Write → List InPlace
  | .replaceOne _ _ _ => []
  | .updateMany filter changes scopes =>
      updatesInPlace changes scopes (shelf.matching filter).bindings

/-- The updates that a batch carries out in place, up to its first failure. -/
def batchInPlace [KeySource] : List Write → Shelf → List InPlace
  | [], _ => []
  | first :: rest, shelf =>
      shelf.writeInPlace first ++
        match shelf.write first with
        | (.ok (), changed) => batchInPlace rest changed
        | (.error _, _) => []

/-- What each write of a batch leaves, up to the first that fails. -/
def batchStates [KeySource] : List Write → Shelf → List Shelf
  | [], _ => []
  | first :: rest, shelf =>
      match shelf.write first with
      | (.ok (), changed) => changed :: batchStates rest changed
      | (.error _, changed) => [changed]

end Shelf

namespace StoreWrite

variable {σ : Type}

/-- The state that a write leaves in a backend. -/
def leave (backend : Backend σ) (name : String) : StoreWrite → σ → σ
  | .replaceOne filter replacement upsert, state =>
      (backend.replaceOne name filter replacement upsert state).2
  | .updateOne filter changes upsert, state =>
      (backend.updateOne name filter changes upsert state).2
  | .updateMany filter changes scopes, state =>
      (backend.updateMany name filter changes scopes state).2
  | .bulkWrite writes, state => (backend.bulkWrite name writes state).2
  | .deleteOne filter, state => (backend.deleteOne name filter state).2
  | .deleteMany filter, state => (backend.deleteMany name filter state).2
  | .dropCollection, state => (backend.dropCollection name state).2

/-- The documents that a write leaves in its collection. -/
def edit [KeySource] : StoreWrite → Shelf → Shelf
  | .replaceOne filter replacement upsert, shelf =>
      (shelf.replaceOne filter replacement upsert).toOption.getD shelf
  | .updateOne filter changes upsert, shelf =>
      (shelf.updateOne filter changes upsert).toOption.getD shelf
  | .updateMany filter changes scopes, shelf => (shelf.updateMany filter changes scopes).2
  | .bulkWrite writes, shelf => (Shelf.writeAll writes shelf).2
  | .deleteOne filter, shelf => (shelf.deleteOne filter).2
  | .deleteMany filter, shelf => shelf.deleteMany filter
  | .dropCollection, _ => Table.empty

/-- The updates that a write carries out in place. -/
def inPlace [KeySource] : StoreWrite → Shelf → List InPlace
  | .updateOne filter changes _, shelf =>
      Shelf.updatesInPlace changes [] (shelf.firstMatch? filter).toList
  | .updateMany filter changes scopes, shelf =>
      Shelf.updatesInPlace changes scopes (shelf.matching filter).bindings
  | .bulkWrite writes, shelf => Shelf.batchInPlace writes shelf
  | _, _ => []

/-- The documents of its collection in the states that a write leads through, those between the
writes of a batch included. -/
def shelves [KeySource] : StoreWrite → Shelf → List Shelf
  | .bulkWrite writes, shelf => Shelf.batchStates writes shelf
  | write, shelf => [write.edit shelf]

end StoreWrite

namespace RunStep

/-- The documents of its collection in the states that a step of a run leads through. -/
def shelves (step : RunStep) (memory : Memory) : List Shelf :=
  @StoreWrite.shelves step.keys step.write (memory.shelf step.name)

/-- The store that a step of a run leaves. -/
def leave (step : RunStep) (memory : Memory) : Memory :=
  step.write.leave (@Memory.backend step.keys) step.name memory

/-- The updates that a step of a run carries out in place. -/
def inPlace (step : RunStep) (memory : Memory) : List InPlace :=
  @StoreWrite.inPlace step.keys step.write (memory.shelf step.name)

/-- The states that a run of writes passes through, the first and the last included. -/
def states : List RunStep → Memory → List Memory
  | [], memory => [memory]
  | step :: rest, memory =>
      memory :: ((step.shelves memory).map (memory.withShelf step.name) ++
        states rest (step.leave memory))

/-- The updates that a run of writes carries out in place. -/
def updates : List RunStep → Memory → List InPlace
  | [], _ => []
  | step :: rest, memory => step.inPlace memory ++ updates rest (step.leave memory)

end RunStep

/-- Nothing has to be settled without an update. -/
theorem settled_nil : Settled [] := by
  intro update inside
  cases inside

/-- The updates of two lists are settled exactly when those of each are. -/
theorem settled_append_iff (left right : List InPlace) :
    Settled (left ++ right) ↔ Settled left ∧ Settled right := by
  constructor
  · intro settled
    exact ⟨fun update inside => settled update (List.mem_append_left _ inside),
      fun update inside => settled update (List.mem_append_right _ inside)⟩
  · rintro ⟨leftSettled, rightSettled⟩ update inside
    rcases List.mem_append.mp inside with before | after
    · exact leftSettled update before
    · exact rightSettled update after

namespace Shelf

/-- Whatever document is stored whole, its key follows its identifier. -/
theorem storable_keyed [KeySource] (document : Document) :
    Storable (fun key stored => ∀ identifier, Document.IdentifiedBy stored identifier →
      identifier = key) document := by
  intro shelf identifier carried
  exact (keyFor_eq carried shelf).symm

/-- Updating several documents in turn keeps keys and identifiers together exactly when the
updates that are carried out are settled. A document that is not reached is as before. One that is
reached carries the identifier that it had, or one that it is assigned; an identifier that it had
is kept, so that only assignments to a document without one matter. -/
theorem keyed_updateEach_iff {shelf : Shelf} (keyed : shelf.Keyed) {changes : Document}
    {scopes : List ArrayFilter} {bindings : List (String × Document)}
    (ascending : bindings.Pairwise fun left right => left.1 < right.1)
    (stored : ∀ binding ∈ bindings, shelf.find? binding.1 = some binding.2) :
    (updateEach changes scopes (bindings.map (·.1)) shelf).2.Keyed ↔
      Settled (updatesInPlace changes scopes bindings) := by
  constructor
  · intro after update listed _ identifier assigned
    obtain ⟨⟨key, document⟩, inside, rfl⟩ := List.mem_map.mp listed
    obtain ⟨result, updated, found⟩ := find?_updateEach_reached ascending stored inside
    have carried : result.IdentifiedBy identifier :=
      (Document.identifiedBy_update_iff updated identifier).mpr (.inr assigned)
    exact after key result found identifier carried
  · intro settled key after found identifier carried
    by_cases touched : ∃ document, (key, document) ∈ reached changes scopes bindings
    · obtain ⟨document, inside⟩ := touched
      obtain ⟨result, updated, present⟩ := find?_updateEach_reached ascending stored inside
      cases present.symm.trans found
      have listed : (key, document) ∈ bindings := (List.takeWhile_sublist _).subset inside
      have own : document.IdentifiedBy identifier → identifier = key :=
        keyed key document (stored _ listed) identifier
      rcases (Document.identifiedBy_update_iff updated identifier).mp carried with before | assigned
      · exact own before
      · rcases Document.absent_or_identified_of_update updated assigned with absent | before
        · exact settled _ (List.mem_map_of_mem inside) absent identifier assigned
        · exact own before
    · have unreached : ∀ binding ∈ reached changes scopes bindings, binding.1 ≠ key := by
        rintro ⟨other, document⟩ inside rfl
        exact touched ⟨document, inside⟩
      rw [find?_updateEach_unreached ascending stored unreached] at found
      exact keyed key after found identifier carried

/-- A mass update keeps keys and identifiers together exactly when the updates that it carries out
are settled. -/
theorem keyed_updateMany_iff {shelf : Shelf} (keyed : shelf.Keyed) (filter : Filter)
    (changes : Document) (scopes : List ArrayFilter) :
    (shelf.updateMany filter changes scopes).2.Keyed ↔
      Settled (updatesInPlace changes scopes (shelf.matching filter).bindings) :=
  keyed_updateEach_iff keyed (shelf.matching filter).ascending fun _ => stored_of_matching

variable [KeySource]

/-- An update without a match adds a document under the key of its identifier, or nothing. -/
theorem keyed_of_unmatched {shelf changed : Shelf} (keyed : shelf.Keyed) {filter : Filter}
    (unmatched : shelf.firstMatch? filter = none) {changes : Document} {upsert : Bool}
    (success : shelf.updateOne filter changes upsert = .ok changed) : changed.Keyed := by
  simp only [Shelf.updateOne, unmatched] at success
  split at success
  · split at success
    · exact Table.Each.insert keyed (storable_keyed _) success
    · cases success
  · cases success
    exact keyed

/-- An update of the first match, of which there is at most one, keeps keys and identifiers together
exactly when it is settled. -/
theorem keyed_updateOne_iff {shelf : Shelf} (keyed : shelf.Keyed) (filter : Filter)
    (changes : Document) (upsert : Bool) :
    ((shelf.updateOne filter changes upsert).toOption.getD shelf).Keyed ↔
      Settled (updatesInPlace changes [] (shelf.firstMatch? filter).toList) := by
  cases matched : shelf.firstMatch? filter with
  | some binding =>
      have single : (shelf.updateOne filter changes upsert).toOption.getD shelf =
          (updateEach changes [] ([binding].map (·.1)) shelf).2 := by
        simp only [Shelf.updateOne, matched, List.map_cons, List.map_nil, updateEach]
        cases shelf.updateAt changes [] binding.1 <;> rfl
      rw [single]
      refine keyed_updateEach_iff keyed (List.pairwise_singleton _ _) ?_
      intro other inside
      rw [List.mem_singleton.mp inside]
      exact (Table.find?_of_first? matched).1
  | none =>
      refine iff_of_true ?_ settled_nil
      cases answered : shelf.updateOne filter changes upsert with
      | error refusal => exact keyed
      | ok changed => exact keyed_of_unmatched keyed matched answered

/-- A write of a batch keeps keys and identifiers together exactly when the updates that it
carries out are settled. -/
theorem keyed_write_iff {shelf : Shelf} (keyed : shelf.Keyed) (write : Write) :
    (shelf.write write).2.Keyed ↔ Settled (shelf.writeInPlace write) := by
  cases write with
  | replaceOne filter replacement upsert =>
      exact iff_of_true (Table.Each.write keyed (storable_keyed replacement)) settled_nil
  | updateMany filter changes scopes => exact keyed_updateMany_iff keyed filter changes scopes

/-- A batch keeps keys and identifiers together after each of its writes exactly when the updates
that it carries out are settled. The induction follows the writes. -/
theorem keyed_batch_iff {shelf : Shelf} (keyed : shelf.Keyed) (writes : List Write) :
    (∀ passed ∈ batchStates writes shelf, passed.Keyed) ↔
      Settled (batchInPlace writes shelf) := by
  induction writes generalizing shelf with
  | nil => simp [batchStates, batchInPlace, Settled]
  | cons first rest ih =>
      have step := keyed_write_iff keyed first
      rw [batchStates, batchInPlace, settled_append_iff, ← step]
      split
      · rename_i changed outcome
        rw [outcome, List.forall_mem_cons]
        apply and_congr_right
        intro after
        exact ih after
      · rename_i changed outcome
        simp [outcome, Settled]

/-- A batch ends with keys and identifiers together if each of its writes leaves them so. The
induction follows the writes. -/
theorem keyed_writeAll {shelf : Shelf} (keyed : shelf.Keyed) {writes : List Write}
    (passed : ∀ state ∈ batchStates writes shelf, state.Keyed) :
    (writeAll writes shelf).2.Keyed := by
  induction writes generalizing shelf with
  | nil => exact keyed
  | cons first rest ih =>
      rw [batchStates] at passed
      rw [writeAll]
      split at passed
      · rename_i changed outcome
        rw [outcome]
        obtain ⟨after, later⟩ := List.forall_mem_cons.mp passed
        exact ih after later
      · rename_i changed outcome
        rw [outcome]
        exact passed changed (List.mem_singleton_self _)

end Shelf

/-- Every string identifier of the store is the key of its document. -/
def Memory.Keyed (memory : Memory) : Prop := ∀ name, (memory.shelf name).Keyed

namespace StoreWrite

variable [KeySource]

/-- A write to the store in memory edits the collection that it names, and no other. -/
theorem shelf_leave (write : StoreWrite) (memory : Memory) (name other : String) :
    (write.leave Memory.backend name memory).shelf other =
      if name = other then write.edit (memory.shelf name) else memory.shelf other := by
  cases write with
  | replaceOne filter replacement upsert => exact Memory.shelf_change _ _ _ _
  | updateOne filter changes upsert => exact Memory.shelf_change _ _ _ _
  | updateMany filter changes scopes => exact Memory.shelf_withShelf _ _ _ _
  | bulkWrite writes => exact Memory.shelf_withShelf _ _ _ _
  | deleteOne filter => exact Memory.shelf_withShelf _ _ _ _
  | deleteMany filter => exact Memory.shelf_withShelf _ _ _ _
  | dropCollection => exact Memory.shelf_drop _ _ _

/-- A write keeps keys and identifiers together, in all states that it leads through, exactly when
the updates that it carries out in place are settled. -/
theorem keyed_shelves_iff {shelf : Shelf} (keyed : shelf.Keyed) (write : StoreWrite) :
    (∀ passed ∈ write.shelves shelf, passed.Keyed) ↔ Settled (write.inPlace shelf) := by
  cases write with
  | replaceOne filter replacement upsert =>
      refine List.forall_mem_singleton.trans (iff_of_true ?_ settled_nil)
      change ((shelf.replaceOne filter replacement upsert).toOption.getD shelf).Keyed
      cases answered : shelf.replaceOne filter replacement upsert with
      | error refusal => exact keyed
      | ok changed => exact Table.Each.replaceOne keyed (Shelf.storable_keyed replacement) answered
  | updateOne filter changes upsert =>
      exact List.forall_mem_singleton.trans (Shelf.keyed_updateOne_iff keyed filter changes upsert)
  | updateMany filter changes scopes =>
      exact List.forall_mem_singleton.trans (Shelf.keyed_updateMany_iff keyed filter changes scopes)
  | bulkWrite writes => exact Shelf.keyed_batch_iff keyed writes
  | deleteOne filter =>
      exact List.forall_mem_singleton.trans
        (iff_of_true (Table.Each.deleteOne keyed filter) settled_nil)
  | deleteMany filter =>
      exact List.forall_mem_singleton.trans (iff_of_true (Table.Each.filter keyed _) settled_nil)
  | dropCollection =>
      exact List.forall_mem_singleton.trans (iff_of_true Table.each_empty settled_nil)

/-- The last state that a write leads through is the one that it leaves. A batch without writes
leads through none. -/
theorem keyed_edit {shelf : Shelf} (keyed : shelf.Keyed) {write : StoreWrite}
    (passed : ∀ state ∈ write.shelves shelf, state.Keyed) : (write.edit shelf).Keyed := by
  cases write with
  | bulkWrite writes => exact Shelf.keyed_writeAll keyed passed
  | _ => exact passed _ (List.mem_singleton_self _)

end StoreWrite

/-- With the documents of one collection exchanged, every identifier is a key exactly when those of
that collection are. -/
theorem Memory.keyed_withShelf_iff {memory : Memory} (keyed : memory.Keyed) (name : String)
    (shelf : Shelf) :
    (memory.withShelf name shelf).Keyed ↔ shelf.Keyed := by
  constructor
  · intro after
    have own := after name
    rw [Memory.shelf_withShelf, if_pos rfl] at own
    exact own
  · intro own other
    rw [Memory.shelf_withShelf]
    split
    · exact own
    · exact keyed other

namespace RunStep

/-- A step of a run keeps keys and identifiers together, in all states that it leads through,
exactly when the updates that it carries out in place are settled. -/
theorem keyed_shelves_iff {memory : Memory} (keyed : memory.Keyed) (step : RunStep) :
    (∀ passed ∈ step.shelves memory, passed.Keyed) ↔ Settled (step.inPlace memory) :=
  @StoreWrite.keyed_shelves_iff step.keys _ (keyed step.name) step.write

/-- A step that keeps them together on its way leaves them together. -/
theorem keyed_leave {memory : Memory} (keyed : memory.Keyed) {step : RunStep}
    (passed : ∀ shelf ∈ step.shelves memory, shelf.Keyed) : (step.leave memory).Keyed := by
  intro other
  rw [leave, @StoreWrite.shelf_leave step.keys]
  split
  · exact @StoreWrite.keyed_edit step.keys _ (keyed step.name) _ passed
  · exact keyed other

/-- Keys and identifiers agree in all states of a run exactly when all its updates in place are
settled. The induction follows the steps of the run; once they disagree, nothing is claimed about
what the rest of the run does. -/
theorem keyed_states_iff {memory : Memory} (keyed : memory.Keyed) (run : List RunStep) :
    (∀ state ∈ states run memory, state.Keyed) ↔ Settled (updates run memory) := by
  induction run generalizing memory with
  | nil =>
      refine iff_of_true ?_ settled_nil
      intro state inside
      rw [List.mem_singleton.mp inside]
      exact keyed
  | cons step rest ih =>
      rw [states, updates, settled_append_iff, List.forall_mem_cons, List.forall_mem_append,
        List.forall_mem_map, ← step.keyed_shelves_iff keyed]
      simp only [Memory.keyed_withShelf_iff keyed]
      constructor
      · rintro ⟨_, passed, later⟩
        exact ⟨passed, (ih (keyed_leave keyed passed)).mp later⟩
      · rintro ⟨passed, settled⟩
        exact ⟨keyed, passed, (ih (keyed_leave keyed passed)).mpr settled⟩

/-- In a store that was seeded with any documents, in every state that any run of writes passes
through, every string identifier is the key of its document, and no two documents of a collection
share one: exactly when no document without an identifier is assigned, where it stands, a string
identifier other than its key. This holds whatever keys the seeding and the writes draw. -/
theorem identifiers_unique_iff [KeySource] {seeds : List (String × Document)} {memory : Memory}
    (built : Memory.seeded seeds = .ok memory) (run : List RunStep) :
    (∀ state ∈ states run memory, ∀ name, (state.shelf name).Keyed ∧
        (state.shelf name).values.Pairwise fun left right =>
          ∀ identifier, left.IdentifiedBy identifier → ¬ right.IdentifiedBy identifier) ↔
      Settled (updates run memory) := by
  have start : memory.Keyed :=
    Memory.each_seedAll (fun _ => Table.each_empty)
      (fun seed _ => Shelf.storable_keyed seed.2) built
  rw [← keyed_states_iff start run]
  constructor
  · intro agree state inside name
    exact (agree state inside name).1
  · intro keyed state inside name
    exact ⟨keyed state inside name, (keyed state inside name).distinct⟩

/-- Updating a document without an identifier is harmless as long as it is not assigned one. -/
theorem identifiers_unique_after_update :
    ∃ memory, Memory.seeded [("items", [("n", .int32 1)])] = .ok memory ∧
      ∀ state ∈ states
          [⟨.padded, "items", .updateMany .everything [("n", .int32 2)] []⟩,
            ⟨.padded, "items", .replaceOne (Filter.id "y") [("id", .string "z")] true⟩] memory,
        ∀ name, (state.shelf name).Keyed := by
  refine ⟨_, rfl, ?_⟩
  intro state inside name
  have built : Memory.seeded [("items", [("n", .int32 1)])] = .ok _ := rfl
  refine ((identifiers_unique_iff built _).mpr ?_ state inside name).1
  intro update listed _ identifier assigned
  have only : update =
      ⟨Shelf.paddedKey Table.empty, [("n", .int32 1)], [("n", .int32 2)]⟩ :=
    List.mem_singleton.mp listed
  rw [only] at assigned
  simp [idField] at assigned

/-- A document that is stored without an identifier and then assigned one stays under its key, so
that another document with this identifier is added beside it. -/
theorem identifiers_shared_after_update :
    ∃ memory, Memory.seeded [("items", [("n", .int32 1)])] = .ok memory ∧
      ∃ state ∈ states
          [⟨.padded, "items", .updateMany .everything [("id", .string "z")] []⟩,
            ⟨.padded, "items", .replaceOne (Filter.id "y") [("id", .string "z")] true⟩] memory,
        ¬ (state.shelf "items").Keyed ∧
          ¬ (state.shelf "items").values.Pairwise fun left right =>
            ∀ identifier, left.IdentifiedBy identifier → ¬ right.IdentifiedBy identifier := by
  refine ⟨_, rfl, _, List.mem_cons_of_mem _ (List.mem_cons_of_mem _
    (List.mem_cons_of_mem _ List.mem_cons_self)), ?_, ?_⟩
  · intro keyed
    have same : "z" = Shelf.paddedKey Table.empty :=
      keyed (Shelf.paddedKey Table.empty) [("n", .int32 1), ("id", .string "z")] (by rfl) "z" rfl
    exact absurd same (by decide +kernel)
  · intro distinct
    have apart := List.pairwise_iff_getElem.mp distinct 0 1 (by decide +kernel)
      (by decide +kernel) Nat.zero_lt_one
    exact apart "z" rfl rfl

end RunStep

end DocStore
