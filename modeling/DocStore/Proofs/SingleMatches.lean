import DocStore.Proofs.SingleWrites

/-!
# Operations on a single match

Reading, deleting, replacing and updating a single match each look for it anew: the read sorts,
skips and limits the matches, the writes stop at the first one. Main statement: they mean the same
document. A read finds the first document that a scan with the same options yields, whatever the
limit. Without options this is the match with the lowest key, and a write changes that document and
no other one that is stored. Nothing is found exactly when there is nothing to find.
-/

namespace DocStore

namespace Shelf

/-- The match with the lowest key together with its key, or nothing, if no document matches. -/
def Chosen (shelf : Shelf) (filter : Filter) : Option (String × Document) → Prop
  | some (key, document) => shelf.FirstMatch filter key document
  | none => shelf.Unmatched filter

/-- The shelf without the document under a key, or as it is, if there is no key. -/
def without (shelf : Shelf) : Option String → Shelf
  | some key => shelf.erase key
  | none => shelf

/-- The document under the key matches, and no other one does. -/
def SoleMatch (shelf : Shelf) (filter : Filter) (key : String) (document : Document) : Prop :=
  shelf.find? key = some document ∧
    ∀ other stored, shelf.find? other = some stored →
      (stored.matches filter = true ↔ other = key)

/-- The search for a match makes the choice. -/
theorem chosen_firstMatch? (shelf : Shelf) (filter : Filter) :
    shelf.Chosen filter (shelf.firstMatch? filter) := by
  cases found : shelf.firstMatch? filter with
  | none => exact (firstMatch?_eq_none_iff shelf filter).mp found
  | some binding => exact (firstMatch?_eq_some_iff shelf filter _ _).mp found

/-- There is one choice. -/
theorem firstMatch?_eq_of_chosen {shelf : Shelf} {filter : Filter}
    {chosen : Option (String × Document)} (choice : shelf.Chosen filter chosen) :
    shelf.firstMatch? filter = chosen := by
  cases chosen with
  | none => exact (firstMatch?_eq_none_iff shelf filter).mpr choice
  | some binding => exact (firstMatch?_eq_some_iff shelf filter _ _).mpr choice

/-- The first document of a window does not depend on its limit: none means all, and any other one
lets a first document through. -/
theorem head?_window (skip limit : Option Nat) (documents : List Document) :
    (window skip limit documents).head? = (documents.drop (skip.getD 0)).head? := by
  rcases limit with - | - | bound <;> simp [window, List.head?_take]

/-- A single read finds the first document of the scan with the same options. -/
theorem scanOne_eq_head? (shelf : Shelf) (filter : Filter) (options : ScanOptions) :
    shelf.scanOne filter options = (shelf.scan filter options).head? := by
  rw [scanOne, scan, scan, head?_window, head?_window]

/-- A single read without options finds the match with the lowest key. -/
theorem scanOne_default (shelf : Shelf) (filter : Filter) :
    shelf.scanOne filter {} = (shelf.firstMatch? filter).map (·.2) := by
  have whole : shelf.scan filter {} = (shelf.matching filter).values := rfl
  rw [scanOne_eq_head?, whole, Table.values, List.head?_map, matching, Table.filter,
    List.head?_filter]
  rfl

section SoleMatch

variable {shelf : Shelf} {filter : Filter} {key : String} {document : Document}

/-- Where nothing matches, a match that is put there is the only one. -/
theorem soleMatch_put (unmatched : shelf.Unmatched filter) (key : String) {document : Document}
    (accepted : document.matches filter = true) :
    SoleMatch (shelf.put key document) filter key document := by
  constructor
  · rw [Table.find?_put, if_pos rfl]
  · intro other stored found
    rw [Table.find?_put] at found
    split at found
    · rename_i same
      cases found
      exact iff_of_true accepted same.symm
    · rename_i apart
      rw [unmatched other stored found]
      exact iff_of_false Bool.false_ne_true (Ne.symm apart)

/-- A sole match is the choice. -/
theorem SoleMatch.chosen (sole : shelf.SoleMatch filter key document) :
    shelf.Chosen filter (some (key, document)) := by
  refine ⟨sole.1, (sole.2 key document sole.1).mpr rfl, ?_⟩
  intro other stored found accepted
  exact Std.le_of_eq ((sole.2 other stored found).mp accepted).symm

/-- Of a sole match the matches are a list of one. -/
theorem SoleMatch.matching (sole : shelf.SoleMatch filter key document) :
    (shelf.matching filter).bindings = [(key, document)] := by
  have same : shelf.matching filter = Table.put Table.empty key document := by
    apply Table.eq_of_find?
    intro other
    rw [Shelf.matching, Table.find?_filter, Table.find?_put, Table.find?_empty]
    cases found : shelf.find? other with
    | none =>
        have apart : key ≠ other := by
          rintro rfl
          rw [sole.1] at found
          cases found
        rw [if_neg apart, Option.filter_none]
    | some stored =>
        have accepted := sole.2 other stored found
        by_cases own : key = other
        · subst own
          rw [sole.1] at found
          cases found
          rw [if_pos rfl, Option.filter_some, accepted.mpr rfl, if_pos rfl]
        · have refused : stored.matches filter = false :=
            Bool.eq_false_iff.mpr fun passes => own (accepted.mp passes).symm
          rw [if_neg own, Option.filter_some, refused]
          rfl
  rw [same]
  rfl

/-- A sole match is counted once. -/
theorem SoleMatch.count (sole : shelf.SoleMatch filter key document) :
    shelf.count filter = 1 := by
  rw [Shelf.count, Table.size, sole.matching, List.length_singleton]

/-- A sole match is read whatever the order and the limit, if nothing is skipped. -/
theorem SoleMatch.scanOne (sole : shelf.SoleMatch filter key document) {options : ScanOptions}
    (unskipped : options.skip.getD 0 = 0) : shelf.scanOne filter options = some document := by
  have ordered : Shelf.sorted options.sort [document] = [document] := by
    cases options.sort with
    | none => rfl
    | some order => exact List.mergeSort_singleton document
  rw [scanOne_eq_head?, Shelf.scan, head?_window, unskipped, List.drop_zero, Table.values,
    sole.matching, List.map_singleton, ordered, List.head?_singleton]

end SoleMatch

/-- Every document is found where it was, except for the one under a key. -/
def Spares (before after : Shelf) (target : Option String) : Prop :=
  ∀ key document, target ≠ some key →
    before.find? key = some document → after.find? key = some document

section Spares

variable {shelf : Shelf} {target : Option String}

/-- Nothing is touched where nothing changes. -/
theorem Spares.refl (shelf : Shelf) (target : Option String) : shelf.Spares shelf target :=
  fun _ _ _ stored => stored

/-- Taking a document out spares the others. -/
theorem spares_erase (shelf : Shelf) (key : String) :
    shelf.Spares (shelf.erase key) (some key) := by
  intro other document apart stored
  rw [Table.find?_erase, if_neg fun same => apart (congrArg some same)]
  exact stored

/-- So does taking out none. -/
theorem spares_without (shelf : Shelf) (target : Option String) :
    shelf.Spares (shelf.without target) target := by
  cases target with
  | none => exact Spares.refl shelf none
  | some key => exact spares_erase shelf key

/-- Putting a document under a key spares the others. -/
theorem spares_put (shelf : Shelf) (key : String) (document : Document) :
    shelf.Spares (shelf.put key document) (some key) := by
  intro other stored apart found
  rw [Table.find?_put, if_neg fun same => apart (congrArg some same)]
  exact found

/-- A document that is added takes the place of none. -/
theorem Spares.adds {rest grown : Shelf} (spares : shelf.Spares rest target) {document : Document}
    (added : rest.Adds document grown) : shelf.Spares grown target := by
  obtain ⟨own, vacant, -, rfl⟩ := added
  intro key stored apart found
  have kept := spares key stored apart found
  have different : own ≠ key := by
    rintro rfl
    rw [vacant] at kept
    cases kept
  rw [Table.find?_put, if_neg different]
  exact kept

variable {filter : Filter} {chosen : Option (String × Document)} {changed : Shelf}

/-- A deletion takes out the choice, if there is one, and tells so. -/
theorem deleteOne_of_chosen (choice : shelf.Chosen filter chosen) :
    shelf.deleteOne filter =
      (if chosen.isSome then 1 else 0, shelf.without (chosen.map (·.1))) := by
  rw [deleteOne, firstMatch?_eq_of_chosen choice]
  cases chosen <;> rfl

/-- A replacement that succeeds takes out the choice before it is added. -/
theorem replaceOne_of_chosen [KeySource] {replacement : Document} {upsert : Bool}
    (choice : shelf.Chosen filter chosen)
    (success : shelf.replaceOne filter replacement upsert = .ok changed) :
    shelf.Spares changed (chosen.map (·.1)) ∧
      ∀ key document, chosen = some (key, document) →
        Adds (shelf.erase key) replacement changed := by
  have found := firstMatch?_eq_of_chosen choice
  rcases replaced_of_replaceOne success with
    ⟨key, document, first, added⟩ | ⟨missing, -, added⟩ | ⟨missing, -, rfl⟩
  · rw [(firstMatch?_eq_some_iff _ _ _ _).mpr first] at found
    subst found
    refine ⟨(spares_erase shelf key).adds added, ?_⟩
    rintro _ _ ⟨⟩
    exact added
  · rw [(firstMatch?_eq_none_iff _ _).mpr missing] at found
    subst found
    exact ⟨(Spares.refl shelf none).adds added, by simp⟩
  · rw [(firstMatch?_eq_none_iff _ _).mpr missing] at found
    subst found
    exact ⟨Spares.refl _ _, by simp⟩

/-- An update that succeeds changes the choice under its key. -/
theorem updateOne_of_chosen [KeySource] {changes : Document} {upsert : Bool}
    (choice : shelf.Chosen filter chosen)
    (success : shelf.updateOne filter changes upsert = .ok changed) :
    shelf.Spares changed (chosen.map (·.1)) ∧
      ∀ key document, chosen = some (key, document) →
        ∃ result, document.update [] changes = .ok result ∧ changed = shelf.put key result := by
  have found := firstMatch?_eq_of_chosen choice
  rcases updated_of_updateOne success with
    ⟨key, document, result, first, updated, rfl⟩ | ⟨missing, -, added, -, grown⟩ |
      ⟨missing, -, rfl⟩
  · rw [(firstMatch?_eq_some_iff _ _ _ _).mpr first] at found
    subst found
    refine ⟨spares_put shelf key result, ?_⟩
    rintro _ _ ⟨⟩
    exact ⟨result, updated, rfl⟩
  · rw [(firstMatch?_eq_none_iff _ _).mpr missing] at found
    subst found
    exact ⟨(Spares.refl shelf none).adds grown, by simp⟩
  · rw [(firstMatch?_eq_none_iff _ _).mpr missing] at found
    subst found
    exact ⟨Spares.refl _ _, by simp⟩

end Spares

end Shelf

namespace Collection

variable [KeySource] {κ : Type}

/-- A read of a single match hands it to the consumer, whose answer counts. -/
theorem findOne_inMemory (memory : Memory) (name : String) (filter : Filter)
    (options : ScanOptions) (consumer : Consumer κ) (sink : κ) :
    (inMemory name).findOne filter options consumer (memory, sink) =
      match (memory.shelf name).scanOne filter options with
      | none => (.error .notFound, (memory, sink))
      | some document =>
          match consumer.feed document sink with
          | (.ok _, filled) => (.ok (), (memory, filled))
          | (.error error, filled) => (.error error, (memory, filled)) := by
  have read : (inMemory name).backend.findOne (inMemory name).name filter options memory =
      (.ok ((memory.shelf name).scanOne filter options), memory) := rfl
  rw [findOne, read]
  cases (memory.shelf name).scanOne filter options <;> rfl

/-- A consumer that does not answer so itself is told that nothing is found exactly when nothing is
there. -/
theorem findOne_eq_notFound_iff (memory : Memory) (name : String) (filter : Filter)
    (options : ScanOptions) {consumer : Consumer κ} (sink : κ)
    (willing : ∀ document state, (consumer.receive (some document) state).1 ≠ .error .notFound) :
    ((inMemory name).findOne filter options consumer (memory, sink)).1 = .error .notFound ↔
      (memory.shelf name).scanOne filter options = none := by
  rw [findOne_inMemory]
  cases (memory.shelf name).scanOne filter options with
  | none => simp
  | some document =>
      have answer := willing document sink
      simp only [Consumer.feed]
      cases received : consumer.receive (some document) sink with
      | mk outcome filled =>
          rw [received] at answer
          cases outcome with
          | ok _ => simp
          | error error =>
              cases error with
              | notFound => exact absurd rfl answer
              | _ => simp

/-- A removal answers that nothing is found exactly when nothing matches. -/
theorem removeOne_eq_notFound_iff (memory : Memory) (name : String) (filter : Filter) :
    ((inMemory name).removeOne filter memory).1 = .error .notFound ↔
      (memory.shelf name).firstMatch? filter = none := by
  simp only [removeOne, inMemory, Memory.backend, Shelf.deleteOne]
  cases (memory.shelf name).firstMatch? filter <;> simp

end Collection

namespace Memory

/-- Every document of every collection is found where it was, except for the one under a key of one
collection. -/
def SparesAllBut (before after : Memory) (name : String) (target : Option String) : Prop :=
  (before.shelf name).Spares (after.shelf name) target ∧
    ∀ other, name ≠ other → after.shelf other = before.shelf other

/-- What a change of one collection spares when it succeeds, it spares in any case, for it does
nothing when it fails. -/
theorem sparesAllBut_of_change {name : String} {edit : Shelf → Except StoreError Shelf}
    {before after : Memory} {answer : Except StoreError Unit} {target : Option String}
    (written : change name edit before = (answer, after))
    (spares : ∀ changed, edit (before.shelf name) = .ok changed →
      (before.shelf name).Spares changed target) :
    before.SparesAllBut after name target ∧
      (answer = .ok () → edit (before.shelf name) = .ok (after.shelf name)) := by
  obtain ⟨same, next, done, -, kept, changed⟩ := change_cases name edit before
  rw [done] at written
  cases written
  cases answer with
  | ok _ =>
      obtain ⟨edited, others⟩ := changed rfl
      exact ⟨⟨spares _ edited, others⟩, fun _ => edited⟩
  | error error =>
      refine ⟨?_, by simp⟩
      rw [SparesAllBut, kept error rfl]
      exact ⟨Shelf.Spares.refl _ _, fun _ _ => rfl⟩

/-- The operations on a single match mean the same document, on every state of a collection and for
every filter.

A single read finds the first document that a scan with the same options yields, whatever is
sorted, skipped or limited, and nothing if the scan yields nothing. A collection says so exactly
then, unless the consumer of the document does. Without options the match with the lowest key is
found. The same document is deleted, replaced or updated: it is taken out, it gives way to the
replacement, or it is exchanged under its key for what the update makes of it. Every other stored
document stays as it is, also when the write fails, or when it adds a document for want of a match.
-/
theorem single_matches_agree [KeySource] (memory : Memory) (name : String) (filter : Filter) :
    (∀ options : ScanOptions, ∃ found : List Document,
      backend.find name filter options memory = (.ok (found.map .ok), memory) ∧
      backend.findOne name filter options memory = (.ok found.head?, memory) ∧
      ∀ (κ : Type) (consumer : Consumer κ) (sink : κ),
        (∀ document state, (consumer.receive (some document) state).1 ≠ .error .notFound) →
        (((Collection.inMemory name).findOne filter options consumer (memory, sink)).1 =
          .error .notFound ↔ found = [])) ∧
    ∃ chosen, (memory.shelf name).Chosen filter chosen ∧
      backend.findOne name filter {} memory = (.ok (chosen.map (·.2)), memory) ∧
      (((Collection.inMemory name).removeOne filter memory).1 = .error .notFound ↔
        chosen = none) ∧
      (∀ answer after, backend.deleteOne name filter memory = (answer, after) →
        answer = .ok (if chosen.isSome then 1 else 0) ∧
        after.shelf name = (memory.shelf name).without (chosen.map (·.1)) ∧
        memory.SparesAllBut after name (chosen.map (·.1))) ∧
      (∀ replacement upsert answer after,
        backend.replaceOne name filter replacement upsert memory = (answer, after) →
        memory.SparesAllBut after name (chosen.map (·.1)) ∧
        (answer = .ok () → ∀ key document, chosen = some (key, document) →
          Shelf.Adds ((memory.shelf name).erase key) replacement (after.shelf name))) ∧
      ∀ changes upsert answer after,
        backend.updateOne name filter changes upsert memory = (answer, after) →
        memory.SparesAllBut after name (chosen.map (·.1)) ∧
        (answer = .ok () → ∀ key document, chosen = some (key, document) →
          ∃ result, document.update [] changes = .ok result ∧
            after.shelf name = (memory.shelf name).put key result) := by
  have choice := (memory.shelf name).chosen_firstMatch? filter
  refine ⟨?_, _, choice, ?_, Collection.removeOne_eq_notFound_iff memory name filter, ?_, ?_, ?_⟩
  · intro options
    have first := (memory.shelf name).scanOne_eq_head? filter options
    refine ⟨(memory.shelf name).scan filter options, rfl, ?_, ?_⟩
    · rw [← first]
      rfl
    · intro κ consumer sink willing
      rw [Collection.findOne_eq_notFound_iff memory name filter options sink willing, first,
        List.head?_eq_none_iff]
  · rw [← Shelf.scanOne_default]
    rfl
  · rintro answer after written
    have removed : backend.deleteOne name filter memory =
        (.ok ((memory.shelf name).deleteOne filter).1,
          memory.withShelf name ((memory.shelf name).deleteOne filter).2) := rfl
    rw [removed, Shelf.deleteOne_of_chosen choice] at written
    cases written
    have here := shelf_withShelf memory name name
      ((memory.shelf name).without (((memory.shelf name).firstMatch? filter).map (·.1)))
    rw [if_pos rfl] at here
    refine ⟨rfl, here, ?_, fun other apart => ?_⟩
    · rw [here]
      exact Shelf.spares_without _ _
    · rw [shelf_withShelf, if_neg apart]
  · intro replacement upsert answer after written
    have changed : change name (fun shelf => shelf.replaceOne filter replacement upsert) memory =
        (answer, after) := written
    obtain ⟨spares, edited⟩ := sparesAllBut_of_change changed fun grown success =>
      (Shelf.replaceOne_of_chosen choice success).1
    exact ⟨spares, fun done => (Shelf.replaceOne_of_chosen choice (edited done)).2⟩
  · intro changes upsert answer after written
    have changed : change name (fun shelf => shelf.updateOne filter changes upsert) memory =
        (answer, after) := written
    obtain ⟨spares, edited⟩ := sparesAllBut_of_change changed fun grown success =>
      (Shelf.updateOne_of_chosen choice success).1
    exact ⟨spares, fun done => (Shelf.updateOne_of_chosen choice (edited done)).2⟩

end Memory

end DocStore
