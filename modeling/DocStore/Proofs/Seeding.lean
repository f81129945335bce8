import DocStore.Proofs.MalformedRecords
import DocStore.Proofs.SingleWrites

/-!
# Seeding

A store can be built from a list of documents, each with the collection it goes to. The documents
are added one after the other, and the first whose identifier is taken ends it. Main statement:
seeding fails exactly when two seeds of one collection carry one identifier, and otherwise every
collection holds its own seeds and nothing else, in the order of their identifiers. So the order of
the seeds does not matter. Rearranged, they make the same store or fail again, though perhaps on
another identifier.

What carries this is a description of the store that speaks of the seeds added so far as a set. One
more seed either extends it or clashes with one of them.
-/

namespace DocStore

/-- The seeds of a collection, in the order given. -/
def seedsOf (name : String) (seeds : List (String × Document)) : List Document :=
  (seeds.filter fun seed => seed.1 == name).map (·.2)

/-- Two seeds go to one collection and carry the identifier. -/
def Shared (identifier : String) (first second : String × Document) : Prop :=
  first.1 = second.1 ∧ first.2.IdentifiedBy identifier ∧ second.2.IdentifiedBy identifier

/-- The identifier is shared by two of the seeds. -/
def SeededTwice (seeds : List (String × Document)) (identifier : String) : Prop :=
  ∃ first second, [first, second].Sublist seeds ∧ Shared identifier first second

variable {seeds others rest : List (String × Document)} {memory : Memory} {identifier : String}

theorem not_seededTwice_iff :
    ¬ SeededTwice seeds identifier ↔
      seeds.Pairwise fun first second => ¬ Shared identifier first second := by
  simp only [SeededTwice, List.pairwise_iff_forall_sublist, not_exists, not_and]

/-- Whether an identifier is shared does not depend on the order of the seeds. -/
theorem seededTwice_perm (rearranged : seeds.Perm others) :
    SeededTwice seeds identifier ↔ SeededTwice others identifier := by
  rw [← not_iff_not, not_seededTwice_iff, not_seededTwice_iff]
  refine rearranged.pairwise_iff ?_
  rintro first second apart ⟨target, carried, alsoCarried⟩
  exact apart ⟨target.symm, alsoCarried, carried⟩

/-- One more seed shares an identifier when it does so with an earlier one. -/
theorem seededTwice_concat_iff (seed : String × Document) :
    SeededTwice (seeds ++ [seed]) identifier ↔
      SeededTwice seeds identifier ∨ ∃ earlier ∈ seeds, Shared identifier earlier seed := by
  rw [← not_iff_not, not_seededTwice_iff, List.pairwise_append, not_or, not_seededTwice_iff]
  simp

/-- Seeds that follow take no identifier back. -/
theorem SeededTwice.append (twice : SeededTwice seeds identifier)
    (rest : List (String × Document)) : SeededTwice (seeds ++ rest) identifier := by
  obtain ⟨first, second, stand, shared⟩ := twice
  exact ⟨first, second, stand.trans (List.sublist_append_left seeds rest), shared⟩

namespace Memory

/-- The store holds the seeds and nothing else, each under its identifier. No two of them share
one. -/
structure Holds (memory : Memory) (seeds : List (String × Document)) : Prop where
  named : ∀ name, memory.shelves.contains name = true ↔ ∃ document, (name, document) ∈ seeds
  stored : ∀ name key document, (memory.shelf name).find? key = some document ↔
    (name, document) ∈ seeds ∧ document.IdentifiedBy key
  distinct : ∀ identifier, ¬ SeededTwice seeds identifier

/-- The empty store holds no seeds. -/
theorem holds_empty : Holds empty [] where
  named name := by simp [empty, Table.contains]
  stored name key document := by simp [empty, shelf]
  distinct identifier := by simp [SeededTwice]

/-- What a store holds does not depend on the order of the seeds. -/
theorem Holds.perm (holds : memory.Holds seeds) (rearranged : seeds.Perm others) :
    memory.Holds others where
  named name := by simp only [holds.named, rearranged.mem_iff]
  stored name key document := by rw [holds.stored, rearranged.mem_iff]
  distinct identifier := by
    rw [← seededTwice_perm rearranged]
    exact holds.distinct identifier

/-- A name is bound to the documents of its collection, if it is bound. -/
theorem find?_shelves (memory : Memory) (name : String) :
    memory.shelves.find? name =
      if memory.shelves.contains name then some (memory.shelf name) else none := by
  cases found : memory.shelves.find? name <;> simp [Table.contains, shelf, found]

/-- Only one store holds given seeds: it has the collections that are named, and in each the
documents that are stored. -/
theorem Holds.unique {other : Memory} (left : memory.Holds seeds) (right : other.Holds seeds) :
    memory = other := by
  have same : memory.shelves = other.shelves := by
    apply Table.eq_of_find?
    intro name
    have named : memory.shelves.contains name = other.shelves.contains name := by
      rw [Bool.eq_iff_iff, left.named, right.named]
    have stored : memory.shelf name = other.shelf name := by
      apply Table.eq_of_find?
      intro key
      apply Option.ext
      intro document
      rw [left.stored, right.stored]
    rw [find?_shelves, find?_shelves, named, stored]
  cases memory
  cases other
  cases same
  rfl

/-- A seed whose identifier is vacant extends what the store holds. -/
theorem Holds.put (holds : memory.Holds seeds) {name : String} {document : Document}
    (carried : document.IdentifiedBy identifier)
    (vacant : (memory.shelf name).find? identifier = none) :
    (memory.withShelf name ((memory.shelf name).put identifier document)).Holds
      (seeds ++ [(name, document)]) where
  named other := by
    by_cases here : name = other
    · subst here
      simp [withShelf, Table.contains, Table.find?_put]
    · have bound := holds.named other
      rw [Table.contains] at bound
      simp [withShelf, Table.contains, Table.find?_put, here, Ne.symm here, bound]
  stored other key found := by
    rw [shelf_withShelf, List.mem_append, List.mem_singleton, Prod.mk.injEq]
    by_cases here : name = other
    · subst here
      rw [if_pos rfl, Table.find?_put]
      by_cases own : identifier = key
      · subst own
        rw [if_pos rfl]
        constructor
        · intro same
          cases same
          exact ⟨.inr ⟨rfl, rfl⟩, carried⟩
        · rintro ⟨inside | ⟨-, rfl⟩, alsoCarried⟩
          · have taken := (holds.stored _ _ _).mpr ⟨inside, alsoCarried⟩
            rw [vacant] at taken
            cases taken
          · rfl
      · rw [if_neg own, holds.stored]
        constructor
        · rintro ⟨inside, alsoCarried⟩
          exact ⟨.inl inside, alsoCarried⟩
        · rintro ⟨inside | ⟨-, rfl⟩, alsoCarried⟩
          · exact ⟨inside, alsoCarried⟩
          · exact absurd (carried.unique alsoCarried) own
    · rw [if_neg here, holds.stored]
      simp [Ne.symm here]
  distinct shared := by
    rw [seededTwice_concat_iff, not_or]
    refine ⟨holds.distinct shared, ?_⟩
    rintro ⟨⟨target, earlier⟩, inside, here, earlierCarries, laterCarries⟩
    cases here
    have taken := (holds.stored _ _ _).mpr ⟨inside, earlierCarries⟩
    rw [laterCarries.unique carried, vacant] at taken
    cases taken

/-- Adding seeds one after the other ends in a store that holds all of them, or at a seed that
shares its identifier with an earlier one. The induction follows the seeds that are left, and what
carries it is that the store holds exactly those already added. -/
theorem seedAll_outcome [KeySource] (holds : memory.Holds seeds)
    (identified : ∀ seed ∈ rest, seed.2.Identified) :
    (∃ grown, seedAll rest memory = .ok grown ∧ grown.Holds (seeds ++ rest)) ∨
      ∃ identifier, seedAll rest memory = .error (.duplicate (.document identifier)) ∧
        SeededTwice (seeds ++ rest) identifier := by
  induction rest generalizing seeds memory with
  | nil => exact .inl ⟨memory, rfl, (List.append_nil seeds).symm ▸ holds⟩
  | cons seed rest ih =>
      obtain ⟨name, document⟩ := seed
      obtain ⟨⟨identifier, carried⟩, others⟩ := List.forall_mem_cons.mp identified
      have whole : seeds ++ (name, document) :: rest = seeds ++ [(name, document)] ++ rest := by
        simp
      rw [whole, seedAll]
      cases found : (memory.shelf name).find? identifier with
      | some earlier =>
          obtain ⟨inside, earlierCarries⟩ := (holds.stored name identifier earlier).mp found
          have taken : (memory.shelf name).insert document =
              .error (.duplicate (.document identifier)) :=
            (Shelf.insert_eq_error_iff _ _ _).mpr
              ⟨identifier, rfl, carried, by simp [found]⟩
          have twice := (seededTwice_concat_iff (name, document)).mpr
            (.inr ⟨(name, earlier), inside, rfl, earlierCarries, carried⟩)
          exact .inr ⟨identifier, by rw [taken], twice.append rest⟩
      | none =>
          have added : (memory.shelf name).insert document =
              .ok ((memory.shelf name).put identifier document) := by
            rw [Shelf.insert_eq_ok_iff, Shelf.keyFor_eq carried]
            exact ⟨found, rfl⟩
          rw [added]
          exact ih (holds.put carried found) others

/-- A collection that holds seeds satisfies the convention. -/
theorem Holds.conventional (holds : memory.Holds seeds) (name : String) :
    (memory.shelf name).Conventional :=
  fun key document found => ((holds.stored name key document).mp found).2

end Memory

/-- Identified documents of which no two share an identifier are different. -/
theorem nodup_of_distinct {documents : List Document}
    (identified : ∀ document ∈ documents, document.Identified)
    (distinct : documents.Pairwise fun left right =>
      ∀ identifier, left.IdentifiedBy identifier → ¬ right.IdentifiedBy identifier) :
    documents.Nodup := by
  apply distinct.imp_of_mem
  rintro left right inside - apart rfl
  obtain ⟨identifier, carried⟩ := identified left inside
  exact apart identifier carried carried

theorem mem_seedsOf_iff (name : String) (document : Document) :
    document ∈ seedsOf name seeds ↔ (name, document) ∈ seeds := by
  simp [seedsOf]

/-- The seeds of a collection do not share identifiers unless two of all the seeds do. -/
theorem distinct_seedsOf (distinct : ∀ identifier, ¬ SeededTwice seeds identifier)
    (name : String) :
    (seedsOf name seeds).Pairwise fun left right =>
      ∀ identifier, left.IdentifiedBy identifier → ¬ right.IdentifiedBy identifier := by
  rw [seedsOf, List.pairwise_map, List.pairwise_filter]
  rw [List.pairwise_iff_forall_sublist]
  intro first second stand here alsoHere identifier carried alsoCarried
  rw [beq_iff_eq] at here alsoHere
  exact distinct identifier ⟨first, second, stand, here.trans alsoHere.symm, carried, alsoCarried⟩

namespace Memory

/-- A collection holds its own seeds, each once. -/
theorem Holds.values_perm (holds : memory.Holds seeds)
    (identified : ∀ seed ∈ seeds, seed.2.Identified) (name : String) :
    (memory.shelf name).values.Perm (seedsOf name seeds) := by
  have seedsIdentified : ∀ document ∈ seedsOf name seeds, document.Identified :=
    fun document inside => identified _ ((mem_seedsOf_iff name document).mp inside)
  have members : ∀ document, document ∈ (memory.shelf name).values ↔
      document ∈ seedsOf name seeds := by
    intro document
    simp only [Table.mem_values_iff, holds.stored, mem_seedsOf_iff]
    constructor
    · rintro ⟨key, inside, -⟩
      exact inside
    · intro inside
      obtain ⟨identifier, carried⟩ := identified _ inside
      exact ⟨identifier, inside, carried⟩
  refine (List.perm_ext_iff_of_nodup ?_ ?_).mpr members
  · exact nodup_of_distinct
      (fun document inside => seedsIdentified document ((members document).mp inside))
      (holds.conventional name).keyed.distinct
  · exact nodup_of_distinct seedsIdentified (distinct_seedsOf holds.distinct name)

end Memory

/-- Without a sort, a skip and a limit, a scan for everything yields all documents in the order of
their keys. -/
theorem Shelf.scan_everything (shelf : Shelf) : shelf.scan Filter.everything {} = shelf.values := by
  have all : shelf.matching Filter.everything = shelf := by
    apply Table.eq_of_find?
    intro key
    rw [matching, Table.find?_filter]
    cases shelf.find? key <;> simp
  rw [scan, all]
  rfl

/-- The documents stand in strictly ascending order of their identifiers. -/
def AscendingIds (documents : List Document) : Prop :=
  documents.Pairwise fun left right => ∀ low high,
    left.IdentifiedBy low → right.IdentifiedBy high → low < high

/-- Under the convention the documents of a collection ascend by their identifiers. -/
theorem Shelf.Conventional.ascendingIds {shelf : Shelf} (conventional : shelf.Conventional) :
    AscendingIds shelf.values := by
  apply List.pairwise_map.mpr
  apply shelf.ascending.imp_of_mem
  intro left right leftListed rightListed below low high leftCarries rightCarries
  rw [leftCarries.unique (conventional.identified leftListed),
    rightCarries.unique (conventional.identified rightListed)]
  exact below

namespace Memory

/-- Two attempts at seeding agree: they make the same store, or both end in a clash. -/
inductive SeededAlike : Except StoreError Memory → Except StoreError Memory → Prop
  | store (memory : Memory) : SeededAlike (.ok memory) (.ok memory)
  | clash (left right : Clash) :
      SeededAlike (.error (.duplicate left)) (.error (.duplicate right))

/-- Seeding makes the store that holds the seeds, or fails on an identifier that two of them
share. -/
theorem seeded_outcome [KeySource] (identified : ∀ seed ∈ seeds, seed.2.Identified) :
    (∃ memory, seeded seeds = .ok memory ∧ memory.Holds seeds) ∨
      ∃ identifier, seeded seeds = .error (.duplicate (.document identifier)) ∧
        SeededTwice seeds identifier :=
  seedAll_outcome holds_empty identified

/-- Seeds that are rearranged make the same store or fail as well. -/
theorem seededAlike_of_perm [KeySource] (identified : ∀ seed ∈ seeds, seed.2.Identified)
    (rearranged : others.Perm seeds) : SeededAlike (seeded others) (seeded seeds) := by
  have othersIdentified : ∀ seed ∈ others, seed.2.Identified :=
    fun seed inside => identified seed (rearranged.subset inside)
  obtain ⟨memory, built, holds⟩ | ⟨identifier, failed, twice⟩ := seeded_outcome identified
  · obtain ⟨other, otherBuilt, otherHolds⟩ | ⟨shared, -, otherTwice⟩ :=
      seeded_outcome othersIdentified
    · rw [built, otherBuilt, (otherHolds.perm rearranged).unique holds]
      exact .store memory
    · exact absurd ((seededTwice_perm rearranged).mp otherTwice) (holds.distinct shared)
  · obtain ⟨other, -, otherHolds⟩ | ⟨shared, otherFailed, -⟩ := seeded_outcome othersIdentified
    · exact absurd ((seededTwice_perm rearranged).mpr twice) (otherHolds.distinct identifier)
    · rw [failed, otherFailed]
      exact .clash _ _

/-- Seeding is exact, and the order of the seeds does not matter.

Given any seeds that carry string identifiers, for any number of collections: seeding fails exactly
when two seeds of one collection carry the same identifier, with a clash that names such an
identifier. Otherwise a scan of any collection yields its own seeds, each once, in ascending order
of their identifiers. Seeds that are rearranged make the same store, or fail as well. -/
theorem seeding_is_exact [KeySource] {seeds : List (String × Document)}
    (identified : ∀ seed ∈ seeds, seed.2.Identified) :
    ((∃ clash, seeded seeds = .error (.duplicate clash)) ↔
        ∃ identifier, SeededTwice seeds identifier) ∧
      (∀ error, seeded seeds = .error error →
        ∃ identifier, error = .duplicate (.document identifier) ∧ SeededTwice seeds identifier) ∧
      ((∀ identifier, ¬ SeededTwice seeds identifier) →
        ∃ memory, seeded seeds = .ok memory ∧ ∀ name, ∃ documents : List Document,
          backend.find name Filter.everything {} memory = (.ok (documents.map .ok), memory) ∧
            documents.Perm (seedsOf name seeds) ∧ AscendingIds documents) ∧
      ∀ others : List (String × Document), others.Perm seeds →
        SeededAlike (seeded others) (seeded seeds) := by
  obtain ⟨memory, built, holds⟩ | ⟨identifier, failed, twice⟩ := seeded_outcome identified
  · refine ⟨by simp [built, holds.distinct], by simp [built], fun _ => ⟨memory, built, ?_⟩,
      fun others => seededAlike_of_perm identified⟩
    intro name
    refine ⟨(memory.shelf name).values, ?_, holds.values_perm identified name,
      (holds.conventional name).ascendingIds⟩
    simp only [backend, Shelf.scan_everything]
  · refine ⟨⟨fun _ => ⟨identifier, twice⟩, fun _ => ⟨_, failed⟩⟩, ?_,
      fun distinct => absurd twice (distinct identifier),
      fun others => seededAlike_of_perm identified⟩
    intro error told
    cases failed.symm.trans told
    exact ⟨identifier, rfl, twice⟩

/-- Three seeds of two collections, two of them with one identifier, make one store in either order.
A fourth one with an identifier that its collection has already makes them fail. -/
theorem seeding_is_exact_of_two_collections :
    let seeds : List (String × Document) := [("items", [(idField, .string "b")]),
      ("notes", [(idField, .string "b")]), ("items", [("n", .null), (idField, .string "a")])]
    let more : List (String × Document) :=
      seeds ++ [("notes", [("n", .null), (idField, .string "b")])]
    (∀ seed ∈ more, seed.2.Identified) ∧
      (∃ memory, seeded seeds = .ok memory ∧ ∃ documents : List Document,
        backend.find "items" Filter.everything {} memory = (.ok (documents.map .ok), memory) ∧
          documents.Perm [[(idField, .string "b")], [("n", .null), (idField, .string "a")]] ∧
          AscendingIds documents) ∧
      SeededAlike (seeded seeds.reverse) (seeded seeds) ∧
      ∃ clash, seeded more = .error (.duplicate clash) := by
  intro seeds more
  have identified : ∀ seed ∈ more, seed.2.Identified := by
    simp only [more, seeds, List.cons_append, List.nil_append, List.forall_mem_cons]
    exact ⟨⟨"b", rfl⟩, ⟨"b", rfl⟩, ⟨"a", rfl⟩, ⟨"b", rfl⟩, List.forall_mem_nil _⟩
  have fewer : ∀ seed ∈ seeds, seed.2.Identified :=
    fun seed inside => identified seed (List.mem_append_left _ inside)
  have distinct (identifier : String) : ¬ SeededTwice seeds identifier := by
    rw [not_seededTwice_iff]
    simp +contextual [seeds, Shared, Document.IdentifiedBy, Document.field?, idField, eq_comm]
  have twice : SeededTwice more "b" :=
    ⟨_, _, .cons _ (.cons_cons _ (.cons _ (.cons_cons _ .slnil))), rfl, rfl, rfl⟩
  obtain ⟨memory, built, found⟩ := (seeding_is_exact fewer).2.2.1 distinct
  exact ⟨identified, ⟨memory, built, found "items"⟩,
    (seeding_is_exact fewer).2.2.2 _ (List.reverse_perm seeds),
    (seeding_is_exact identified).1.mpr ⟨"b", twice⟩⟩

end Memory

end DocStore
