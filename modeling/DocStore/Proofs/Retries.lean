import DocStore.Proofs.Batches

/-!
# Saving again

A batch of saves that was cut short may be submitted again from its beginning. Under the convention
a save binds the identifier of its document and does nothing else, so it never fails, and what a
batch of saves leaves depends on the store before it only under the identifiers that it does not
save. A run cut short has changed nothing there.
-/

namespace DocStore

namespace Table

variable {α : Type}

/-- Binds keys one after the other. Of several entries for a key the last one stays. -/
def putAll (table : Table α) (bindings : List (String × α)) : Table α :=
  bindings.foldl (fun grown binding => grown.put binding.1 binding.2) table

/-- A key that is not bound anew reads as before. -/
theorem find?_putAll_of_notMem {bindings : List (String × α)} {key : String}
    (absent : key ∉ bindings.map (·.1)) (table : Table α) :
    (table.putAll bindings).find? key = table.find? key := by
  induction bindings generalizing table with
  | nil => rfl
  | cons first rest ih =>
      rw [List.map_cons, List.mem_cons, not_or] at absent
      have step : table.putAll (first :: rest) = (table.put first.1 first.2).putAll rest := rfl
      rw [step, ih absent.2, find?_put, if_neg fun same => absent.1 same.symm]

/-- Tables that read alike under the keys that are not bound anew become equal. The induction
follows the bindings: the first one makes the tables alike under its key. -/
theorem putAll_congr {bindings : List (String × α)} {left right : Table α}
    (alike : ∀ key, key ∉ bindings.map (·.1) → left.find? key = right.find? key) :
    left.putAll bindings = right.putAll bindings := by
  induction bindings generalizing left right with
  | nil => exact eq_of_find? fun key => alike key (List.not_mem_nil)
  | cons first rest ih =>
      have stillAlike : ∀ key, key ∉ rest.map (·.1) →
          (left.put first.1 first.2).find? key = (right.put first.1 first.2).find? key := by
        intro key absent
        rw [find?_put, find?_put]
        by_cases own : first.1 = key
        · rw [if_pos own, if_pos own]
        · rw [if_neg own, if_neg own]
          apply alike
          rw [List.map_cons, List.mem_cons, not_or]
          exact ⟨fun same => own same.symm, absent⟩
      exact ih stillAlike

/-- Binding some of the keys beforehand makes no difference. -/
theorem putAll_take_putAll (table : Table α) (bindings : List (String × α)) (done : Nat) :
    (table.putAll (bindings.take done)).putAll bindings = table.putAll bindings := by
  apply putAll_congr
  intro key absent
  apply find?_putAll_of_notMem
  intro inside
  rw [List.map_take] at inside
  exact absent (List.mem_of_mem_take inside)

end Table

namespace Shelf

/-- Documents that are put under their identifiers keep the convention. -/
theorem Conventional.putAll {shelf : Shelf} (conventional : shelf.Conventional)
    {saves : List (String × Document)}
    (identified : ∀ save ∈ saves, save.2.IdentifiedBy save.1) :
    Shelf.Conventional (Table.putAll shelf saves) := by
  induction saves generalizing shelf with
  | nil => exact conventional
  | cons first rest ih =>
      have own : Document.IdentifiedBy first.2 first.1 := identified first List.mem_cons_self
      have after : Shelf.Conventional (shelf.put first.1 first.2) :=
        Table.Each.put conventional own
      exact ih after fun save inside => identified save (List.mem_cons_of_mem _ inside)

end Shelf

namespace Memory

/-- The store with documents put into a collection, one after the other. -/
def putAll (memory : Memory) (name : String) (saves : List (String × Document)) : Memory :=
  saves.foldl (fun store save => store.withShelf name ((store.shelf name).put save.1 save.2)) memory

/-- Documents put one after the other are put together, if there are any. The induction follows
the documents behind the first. -/
theorem putAll_cons (memory : Memory) (name : String) (first : String × Document)
    (rest : List (String × Document)) :
    memory.putAll name (first :: rest) =
      memory.withShelf name ((memory.shelf name).putAll (first :: rest)) := by
  induction rest generalizing first memory with
  | nil => rfl
  | cons second rest ih =>
      have step : memory.putAll name (first :: second :: rest) =
          (memory.withShelf name ((memory.shelf name).put first.1 first.2)).putAll name
            (second :: rest) := rfl
      rw [step, ih, shelf_withShelf, if_pos rfl, withShelf_withShelf]
      rfl

/-- The collection holds its documents and those that were put there. -/
theorem shelf_putAll (memory : Memory) (name : String) (saves : List (String × Document)) :
    (memory.putAll name saves).shelf name = (memory.shelf name).putAll saves := by
  cases saves with
  | nil => rfl
  | cons first rest => rw [putAll_cons, shelf_withShelf, if_pos rfl]

/-- Putting some of the documents beforehand makes no difference. -/
theorem putAll_take_putAll (memory : Memory) (name : String) (saves : List (String × Document))
    (done : Nat) :
    (memory.putAll name (saves.take done)).putAll name saves = memory.putAll name saves := by
  have exchanged : ∀ (early : List (String × Document)) (shelf : Shelf),
      (memory.putAll name early).withShelf name shelf = memory.withShelf name shelf := by
    intro early shelf
    cases early with
    | nil => rfl
    | cons first rest => rw [putAll_cons, withShelf_withShelf]
  cases saves with
  | nil => rw [List.take_nil]; rfl
  | cons first rest =>
      rw [putAll_cons, putAll_cons, shelf_putAll, Table.putAll_take_putAll, exchanged]

/-- Putting documents once more makes no difference. -/
theorem putAll_putAll (memory : Memory) (name : String) (saves : List (String × Document)) :
    (memory.putAll name saves).putAll name saves = memory.putAll name saves := by
  have whole := putAll_take_putAll memory name saves saves.length
  rwa [List.take_length] at whole

/-- The convention is kept in the collection into which identified documents are put. -/
theorem conventional_putAll {memory : Memory} {name : String}
    (conventional : (memory.shelf name).Conventional) {saves : List (String × Document)}
    (identified : ∀ save ∈ saves, save.2.IdentifiedBy save.1) :
    ((memory.putAll name saves).shelf name).Conventional := by
  rw [shelf_putAll]
  exact conventional.putAll identified

end Memory

namespace Collection

variable {memory : Memory} {name : String}

/-- Under the convention a document that is saved under its identifier is put there. -/
theorem saveOne_eq [KeySource] (conventional : (memory.shelf name).Conventional)
    {identifier : String} {document : Document} (carried : document.IdentifiedBy identifier) :
    (inMemory name).saveOne identifier document memory =
      (.ok (), memory.putAll name [(identifier, document)]) := by
  change Memory.change name (fun shelf => shelf.replaceOne (Filter.id identifier) document true)
    memory = _
  simp only [Memory.change, Shelf.replaceOne_id conventional carried]
  rfl

/-- Documents that are saved in turn are put into the collection, and none of the saves fails. The
induction follows the saves, each of which keeps the convention. -/
theorem inTurn_saves [KeySource] (conventional : (memory.shelf name).Conventional)
    {saves : List (String × Document)}
    (identified : ∀ save ∈ saves, save.2.IdentifiedBy save.1) :
    Action.inTurn (saves.map fun save => (inMemory name).saveOne save.1 save.2) memory =
      (.ok (), memory.putAll name saves) := by
  induction saves generalizing memory with
  | nil => rfl
  | cons first rest ih =>
      have own : Document.IdentifiedBy first.2 first.1 := identified first List.mem_cons_self
      have after : ((memory.putAll name [first]).shelf name).Conventional :=
        Memory.conventional_putAll conventional (List.forall_mem_singleton.mpr own)
      rw [List.map_cons, Action.inTurn, saveOne_eq conventional own]
      exact ih after fun save inside => identified save (List.mem_cons_of_mem _ inside)

/-- Documents that carry the identifiers at their positions carry them in pairs. -/
theorem identified_zip {identifiers : List String} {documents : List Document}
    (carried : documents.map (fun document => Document.field? document idField) =
      identifiers.map fun identifier => some (.string identifier)) :
    ∀ save ∈ identifiers.zip documents, save.2.IdentifiedBy save.1 := by
  induction identifiers generalizing documents with
  | nil => intro save inside; cases inside
  | cons identifier identifiers ih =>
      cases documents with
      | nil => intro save inside; cases inside
      | cons document documents =>
          obtain ⟨own, later⟩ := List.cons.inj carried
          intro save inside
          rcases List.mem_cons.mp inside with here | present
          · exact here ▸ own
          · exact ih later save present

/-- Saves of identifiers and documents position by position are saves of the pairs. -/
theorem zipWith_saveOne [KeySource] (name : String) (identifiers : List String)
    (documents : List Document) :
    List.zipWith (inMemory name).saveOne identifiers documents =
      (identifiers.zip documents).map fun save => (inMemory name).saveOne save.1 save.2 := by
  rw [List.zip, List.map_zipWith]

/-- Saving documents together under the identifiers they carry puts them there. -/
theorem saveAll_eq [KeySource] (conventional : (memory.shelf name).Conventional)
    {identifiers : List String} {documents : List Document}
    (carried : documents.map (fun document => Document.field? document idField) =
      identifiers.map fun identifier => some (.string identifier)) :
    (inMemory name).saveAll identifiers documents memory =
      (.ok (), memory.putAll name (identifiers.zip documents)) := by
  have same : identifiers.length = documents.length := by
    simpa using (congrArg List.length carried).symm
  rw [saveAll_eq_inTurn name same, zipWith_saveOne,
    inTurn_saves conventional (identified_zip carried)]

/-- A batch of saves may be retried. Every document of the collection carries its key as its
identifier, and the documents of the batch carry the identifiers under which they are saved; an
identifier may occur several times. The batch succeeds. After any number of its saves by themselves,
none of which fails, the whole batch succeeds as well and leaves the store that it leaves without
them. So saving once more, all together or a single document, changes nothing. -/
theorem saves_may_be_retried [KeySource] (conventional : (memory.shelf name).Conventional)
    {identifiers : List String} {documents : List Document}
    (carried : documents.map (fun document => Document.field? document idField) =
      identifiers.map fun identifier => some (.string identifier)) :
    ∃ saved, (inMemory name).saveAll identifiers documents memory = (.ok (), saved) ∧
      (∀ done, ∃ cut,
        Action.inTurn ((List.zipWith (inMemory name).saveOne identifiers documents).take done)
          memory = (.ok (), cut) ∧
        (inMemory name).saveAll identifiers documents cut = (.ok (), saved)) ∧
      (inMemory name).saveAll identifiers documents saved = (.ok (), saved) ∧
      ∀ identifier document, Document.IdentifiedBy document identifier →
        ∃ once, (inMemory name).saveOne identifier document memory = (.ok (), once) ∧
          (inMemory name).saveOne identifier document once = (.ok (), once) := by
  have identified := identified_zip carried
  refine ⟨memory.putAll name (identifiers.zip documents), saveAll_eq conventional carried, ?_, ?_,
    ?_⟩
  · intro done
    have identifiedBefore : ∀ save ∈ (identifiers.zip documents).take done,
        save.2.IdentifiedBy save.1 :=
      fun save inside => identified save (List.mem_of_mem_take inside)
    refine ⟨memory.putAll name ((identifiers.zip documents).take done), ?_, ?_⟩
    · rw [zipWith_saveOne, ← List.map_take, inTurn_saves conventional identifiedBefore]
    · rw [saveAll_eq (Memory.conventional_putAll conventional identifiedBefore) carried,
        Memory.putAll_take_putAll]
  · rw [saveAll_eq (Memory.conventional_putAll conventional identified) carried,
      Memory.putAll_putAll]
  · intro identifier document own
    have kept : ((memory.putAll name [(identifier, document)]).shelf name).Conventional :=
      Memory.conventional_putAll conventional (List.forall_mem_singleton.mpr own)
    refine ⟨memory.putAll name [(identifier, document)], saveOne_eq conventional own, ?_⟩
    rw [saveOne_eq kept own, Memory.putAll_putAll]

/-- A batch that saves one identifier twice, over a stored document, submitted again after two of
its three saves. -/
theorem saves_may_be_retried_after_two :
    ∃ memory, Memory.seeded [("items", [("id", .string "a")])] = .ok memory ∧
      ∃ saved cut,
        (inMemory "items").saveAll ["a", "b", "a"]
          [[("id", .string "a"), ("n", .int32 1)], [("id", .string "b")],
            [("id", .string "a"), ("n", .int32 2)]] memory = (.ok (), saved) ∧
        Action.inTurn ((List.zipWith (inMemory "items").saveOne ["a", "b", "a"]
          [[("id", .string "a"), ("n", .int32 1)], [("id", .string "b")],
            [("id", .string "a"), ("n", .int32 2)]]).take 2) memory = (.ok (), cut) ∧
        (inMemory "items").saveAll ["a", "b", "a"]
          [[("id", .string "a"), ("n", .int32 1)], [("id", .string "b")],
            [("id", .string "a"), ("n", .int32 2)]] cut = (.ok (), saved) := by
  have built : Memory.seeded [("items", [("id", .string "a")])] = .ok _ := rfl
  have seedIdentified : ∀ seed ∈ [("items", [("id", Value.string "a")])],
      ∃ identifier, Document.IdentifiedBy seed.2 identifier := by
    intro seed inside
    rw [List.mem_singleton.mp inside]
    exact ⟨"a", rfl⟩
  have conventional := conventional_seeded seedIdentified built "items"
  have carried : [[("id", Value.string "a"), ("n", .int32 1)], [("id", .string "b")],
        [("id", .string "a"), ("n", .int32 2)]].map
          (fun document => Document.field? document idField) =
      ["a", "b", "a"].map fun identifier => some (.string identifier) := rfl
  obtain ⟨saved, success, retried, _⟩ := saves_may_be_retried conventional carried
  obtain ⟨cut, short, whole⟩ := retried 2
  exact ⟨_, built, saved, cut, success, short, whole⟩

end Collection

end DocStore
