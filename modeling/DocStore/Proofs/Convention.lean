import DocStore.Collection
import DocStore.Proofs.ShelfInvariants

/-!
# The identifier convention

By convention every document carries a string identifier and stands under it as its key. A shelf
that satisfies the convention goes on satisfying it through every operation of a collection, as
long as the documents that are stored whole carry a string identifier. Filters, assignments and
array filters may be anything. The only obstacle that an assignment meets is that a string
identifier survives it, whatever paths it takes.

The weaker invariant, that a string identifier is the key, is enough for no two documents of a
collection to share one.
-/

namespace DocStore

namespace Shelf

/-- A document that carries a string identifier stands under it. -/
def Keyed (shelf : Shelf) : Prop :=
  Table.Each
    (fun key document => ∀ identifier, document.IdentifiedBy identifier → identifier = key) shelf

/-- Every document carries a string identifier and stands under it. -/
def Conventional (shelf : Shelf) : Prop :=
  Table.Each (fun key document => document.IdentifiedBy key) shelf

/-- The convention is stronger than keys that follow the identifiers there are. -/
theorem Conventional.keyed {shelf : Shelf} (conventional : shelf.Conventional) : shelf.Keyed := by
  intro key document found identifier carried
  exact carried.unique (conventional key document found)

/-- Documents under keys that follow their identifiers do not share an identifier: it would be
the key of both, and keys are listed in strictly ascending order. -/
theorem Keyed.distinct {shelf : Shelf} (keyed : shelf.Keyed) :
    shelf.values.Pairwise fun left right =>
      ∀ identifier, left.IdentifiedBy identifier → ¬ right.IdentifiedBy identifier := by
  apply List.pairwise_map.mpr
  apply shelf.ascending.imp_of_mem
  intro left right leftListed rightListed below identifier leftCarries rightCarries
  have leftKey : identifier = left.1 :=
    keyed left.1 left.2 ((Table.mem_bindings_iff shelf _ _).mp leftListed) identifier leftCarries
  have rightKey : identifier = right.1 :=
    keyed right.1 right.2 ((Table.mem_bindings_iff shelf _ _).mp rightListed) identifier
      rightCarries
  rw [← leftKey, ← rightKey] at below
  exact String.lt_irrefl identifier below

/-- A string identifier is the key that any shelf chooses. -/
theorem keyFor_eq [KeySource] {document : Document} {identifier : String}
    (carried : document.IdentifiedBy identifier) (shelf : Shelf) :
    shelf.keyFor document = identifier := by
  unfold Document.IdentifiedBy at carried
  simp [keyFor, carried]

/-- A document with a string identifier can be stored whole. -/
theorem storable_of_identified [KeySource] {document : Document}
    (identified : ∃ identifier, document.IdentifiedBy identifier) :
    Storable (fun key stored => Document.IdentifiedBy stored key) document := by
  obtain ⟨identifier, carried⟩ := identified
  intro shelf
  rw [keyFor_eq carried shelf]
  exact carried

/-- The identifier under which a document stands survives every update. -/
theorem survives_identifiedBy (changes : Document) (scopes : List ArrayFilter) :
    Survives (fun key stored => Document.IdentifiedBy stored key) changes scopes :=
  fun _ _ _ carried success => carried.update success

end Shelf

/-- The documents that a write stores whole. -/
def Write.replacements : Write → List Document
  | .replaceOne _ replacement _ => [replacement]
  | .updateMany _ _ _ => []

/-- A write keeps the convention if the documents it stores whole carry a string identifier. -/
theorem Write.keeps_convention [KeySource] {write : Write}
    (identified : ∀ document ∈ write.replacements, ∃ identifier, document.IdentifiedBy identifier) :
    Shelf.Keeps (fun key stored => Document.IdentifiedBy stored key) write := by
  cases write with
  | replaceOne filter replacement upsert =>
      exact Shelf.storable_of_identified (identified replacement (List.mem_singleton_self _))
  | updateMany filter changes scopes => exact Shelf.survives_identifiedBy changes scopes

namespace Collection

/-- The collection of a name in the store in memory. -/
def inMemory [KeySource] (name : String) : Collection Memory := ⟨name, Memory.backend⟩

/-- The operations by which a collection is changed, with their arguments. -/
inductive Operation where
  | saveOne (identifier : String) (replacement : Document)
  | replaceOne (filter : Filter) (replacement : Document)
  | setOne (identifier : String) (changes : Document)
  | saveAll (identifiers : List String) (documents : List Document)
  | updateMany (filter : Filter) (changes : Document)
  | updateEach (updates : List MassUpdate)
  | submit (batch : Batch)
  | removeOne (filter : Filter)
  | removeAll (filter : Filter)
  | drop

namespace Operation

variable {σ : Type}

/-- Carries out an operation on a collection. -/
def perform (collection : Collection σ) : Operation → Action σ Unit
  | .saveOne identifier replacement => collection.saveOne identifier replacement
  | .replaceOne filter replacement => collection.replaceOne filter replacement
  | .setOne identifier changes => collection.setOne identifier changes
  | .saveAll identifiers documents => collection.saveAll identifiers documents
  | .updateMany filter changes => collection.updateMany filter changes
  | .updateEach updates => collection.updateEach updates
  | .submit batch => batch.submit collection
  | .removeOne filter => collection.removeOne filter
  | .removeAll filter => collection.removeAll filter
  | .drop => collection.drop

/-- Carries out operations one after the other, each on the collection named before it. Whether
one succeeds or fails, the next goes on from the state that it leaves. -/
def performAll (backend : Backend σ) : List (String × Operation) → σ → σ
  | [], state => state
  | (name, operation) :: rest, state =>
      performAll backend rest (operation.perform ⟨name, backend⟩ state).2

/-- The documents that an operation stores whole. -/
def replacements : Operation → List Document
  | .saveOne _ replacement => [replacement]
  | .replaceOne _ replacement => [replacement]
  | .saveAll _ documents => documents
  | .submit batch => batch.writes.flatMap Write.replacements
  | _ => []

/-- Every document that an operation stores whole carries a string identifier. -/
def Conventional (operation : Operation) : Prop :=
  ∀ document ∈ operation.replacements, ∃ identifier, document.IdentifiedBy identifier

end Operation

/-- A batch submitted to a collection in memory keeps the convention, in every collection. -/
theorem conventional_submit [KeySource] {memory : Memory} {name other : String}
    {writes : List Write}
    (conventional : (memory.shelf other).Conventional)
    (identified : ∀ write ∈ writes, ∀ document ∈ write.replacements,
      ∃ identifier, document.IdentifiedBy identifier) :
    Shelf.Conventional
      (((inMemory name).submit writes memory).2.shelf other) := by
  cases writes with
  | nil => exact conventional
  | cons first rest =>
      change Shelf.Conventional
        ((memory.withShelf name (Shelf.writeAll (first :: rest) (memory.shelf name)).2).shelf other)
      apply Memory.each_withShelf conventional
      intro each
      apply each.writeAll
      intro write inside
      exact Write.keeps_convention (identified write inside)

/-- Saving documents pairwise under identifiers stores those documents whole and nothing else. -/
theorem replacements_of_saves {identifiers : List String} {documents : List Document}
    {write : Write} (inside : write ∈ List.zipWith Write.save identifiers documents)
    {document : Document} (stored : document ∈ write.replacements) : document ∈ documents := by
  rw [← List.map_uncurry_zip_eq_zipWith] at inside
  obtain ⟨⟨identifier, saved⟩, paired, rfl⟩ := List.mem_map.mp inside
  have same : document = saved := List.mem_singleton.mp stored
  exact same ▸ (List.of_mem_zip paired).2

section Runs

variable [KeySource]

/-- Removing a match leaves the state that the backend leaves, whether there is a match or not. -/
theorem state_removeOne (name : String) (filter : Filter) (memory : Memory) :
    ((inMemory name).removeOne filter memory).2 =
      memory.withShelf name ((memory.shelf name).deleteOne filter).2 := by
  simp only [Collection.removeOne, inMemory, Memory.backend]
  cases (memory.shelf name).deleteOne filter with
  | mk removed changed => cases removed <;> rfl

/-- Every operation keeps the convention in every collection of the store, whether it succeeds or
fails. There is one case for each operation; a save in place of several is a batch of saves. -/
theorem Operation.conventional_perform {memory : Memory} {name other : String}
    {operation : Operation} (conventional : (memory.shelf other).Conventional)
    (identified : operation.Conventional) :
    Shelf.Conventional ((operation.perform (inMemory name) memory).2.shelf other) := by
  cases operation with
  | saveOne identifier replacement =>
      have own := Shelf.storable_of_identified (identified replacement (List.mem_singleton_self _))
      change Shelf.Conventional ((Memory.change name (fun shelf =>
        shelf.replaceOne (Filter.id identifier) replacement true) memory).2.shelf other)
      exact Memory.each_change conventional fun _ _ each => each.replaceOne own
  | replaceOne filter replacement =>
      have own := Shelf.storable_of_identified (identified replacement (List.mem_singleton_self _))
      change Shelf.Conventional ((Memory.change name (fun shelf =>
        shelf.replaceOne filter replacement true) memory).2.shelf other)
      exact Memory.each_change conventional fun _ _ each => each.replaceOne own
  | setOne identifier changes =>
      change Shelf.Conventional ((Memory.change name (fun shelf =>
        shelf.updateOne (Filter.id identifier) changes true) memory).2.shelf other)
      apply Memory.each_change conventional
      intro shelf changed each success
      refine each.updateOne (Shelf.survives_identifiedBy changes []) ?_ success
      intro document updated
      have seeded : Document.IdentifiedBy (Filter.id identifier).equalityFields identifier := rfl
      exact Shelf.storable_of_identified ⟨identifier, seeded.update updated⟩
  | saveAll identifiers documents =>
      simp only [Operation.perform, Collection.saveAll]
      split
      · exact conventional
      · split
        · exact conventional
        · apply conventional_submit conventional
          intro write inside document stored
          exact identified document (replacements_of_saves inside stored)
  | updateMany filter changes =>
      apply Memory.each_withShelf conventional
      intro each
      exact each.updateEach (Shelf.survives_identifiedBy changes []) _
  | updateEach updates =>
      apply conventional_submit conventional
      intro write inside document stored
      obtain ⟨update, _, rfl⟩ := List.mem_map.mp inside
      cases stored
  | submit batch =>
      apply conventional_submit conventional
      intro write inside document stored
      exact identified document (List.mem_flatMap.mpr ⟨write, inside, stored⟩)
  | removeOne filter =>
      rw [perform, state_removeOne]
      exact Memory.each_withShelf conventional fun each => each.deleteOne filter
  | removeAll filter =>
      apply Memory.each_withShelf conventional
      intro each
      exact each.filter _
  | drop =>
      change Shelf.Conventional (Memory.shelf ⟨memory.shelves.erase name⟩ other)
      rw [Memory.shelf_drop]
      split
      · exact Table.each_empty
      · exact conventional

/-- A run of operations keeps the convention in every collection. -/
theorem Operation.conventional_performAll {memory : Memory} {other : String}
    {operations : List (String × Operation)} (conventional : (memory.shelf other).Conventional)
    (identified : ∀ operation ∈ operations, operation.2.Conventional) :
    Shelf.Conventional ((performAll Memory.backend operations memory).shelf other) := by
  induction operations generalizing memory with
  | nil => exact conventional
  | cons first rest ih =>
      obtain ⟨name, operation⟩ := first
      have after : Shelf.Conventional
          ((operation.perform (inMemory name) memory).2.shelf other) :=
        conventional_perform conventional (identified _ List.mem_cons_self)
      exact ih after fun later inside => identified later (List.mem_cons_of_mem _ inside)

/-- Seeds that carry string identifiers make a store that satisfies the convention. -/
theorem conventional_seeded {seeds : List (String × Document)} {memory : Memory}
    (identified : ∀ seed ∈ seeds, ∃ identifier, seed.2.IdentifiedBy identifier)
    (built : Memory.seeded seeds = .ok memory) (name : String) :
    (memory.shelf name).Conventional :=
  Memory.each_seedAll (fun _ => Table.each_empty)
    (fun seed inside => Shelf.storable_of_identified (identified seed inside)) built name

/-- The same for seeds whose identifiers are listed. -/
theorem conventional_of_identifiers {seeds : List (String × Document)} {memory : Memory}
    (built : Memory.seeded seeds = .ok memory) (identifiers : List String)
    (carried : seeds.map (fun seed => Document.field? seed.2 idField) =
      identifiers.map fun identifier => some (.string identifier)) (name : String) :
    (memory.shelf name).Conventional := by
  refine conventional_seeded ?_ built name
  intro seed inside
  have listed : Document.field? seed.2 idField ∈
      seeds.map fun seed => Document.field? seed.2 idField := List.mem_map_of_mem inside
  rw [carried] at listed
  obtain ⟨identifier, _, same⟩ := List.mem_map.mp listed
  exact ⟨identifier, same.symm⟩

/-- In a store that was seeded with identified documents, and changed by any operations that store
identified documents whole, every document carries its key as its identifier. Hence no two
documents of a collection share an identifier. -/
theorem Operation.identifiers_are_keys {seeds : List (String × Document)} {memory : Memory}
    (seedsIdentified : ∀ seed ∈ seeds, ∃ identifier, seed.2.IdentifiedBy identifier)
    (built : Memory.seeded seeds = .ok memory) {operations : List (String × Operation)}
    (identified : ∀ operation ∈ operations, operation.2.Conventional) (name : String) :
    ((performAll Memory.backend operations memory).shelf name).Conventional ∧
      ((performAll Memory.backend operations memory).shelf name).values.Pairwise fun left right =>
        ∀ identifier, left.IdentifiedBy identifier → ¬ right.IdentifiedBy identifier := by
  have start := conventional_seeded seedsIdentified built name
  have conventional := conventional_performAll start identified
  exact ⟨conventional, conventional.keyed.distinct⟩

end Runs

/-- Assignments to an identifier or below it are refused, and a document that is saved under
another identifier than its own goes to its own. -/
theorem Operation.identifiers_are_keys_of_edits :
    ∃ memory, Memory.seeded [("items", [("id", .string "a")]), ("items", [("id", .string "b")])] =
        .ok memory ∧
      ∃ edited, performAll Memory.backend
          [("items", .setOne "a" [("id", .string "b")]), ("items", .setOne "b" [("id.x", .null)]),
            ("items", .saveOne "a" [("id", .string "c")])] memory = edited ∧
        (edited.shelf "items").keys = ["b", "c"] ∧ (edited.shelf "items").Conventional := by
  refine ⟨_, rfl, _, rfl, by decide +kernel, ?_⟩
  have built : Memory.seeded [("items", [("id", .string "a")]), ("items", [("id", .string "b")])] =
      .ok _ := rfl
  refine (identifiers_are_keys ?_ built ?_ "items").1
  · intro seed inside
    simp only [List.mem_cons, List.not_mem_nil, or_false] at inside
    obtain rfl | rfl := inside
    · exact ⟨"a", rfl⟩
    · exact ⟨"b", rfl⟩
  · intro operation inside
    simp only [List.mem_cons, List.not_mem_nil, or_false] at inside
    obtain rfl | rfl | rfl := inside <;> intro document stored
    · cases stored
    · cases stored
    · cases List.mem_singleton.mp stored
      exact ⟨"c", rfl⟩

end Collection

end DocStore
