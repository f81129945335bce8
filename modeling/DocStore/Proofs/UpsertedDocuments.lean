import DocStore.Proofs.SingleMatches
import DocStore.Proofs.WrittenPaths
import Mathlib.Logic.Function.Iterate

/-!
# Documents that are added for want of a match

An update that finds no match may add a document: the fields that the filter fixes, changed by the
update. Collecting these fields, changing them and matching a document are three walks of their
own. Main statement: they agree on the conjunctions of equalities. If no assignment goes through
one of the fields, the added document is the only match of the filter, so the same update finds it
from then on and never adds another one.
-/

namespace DocStore

/-- A text without a dot is a single piece. -/
theorem splitDots_of_dotless {letters : List Char} (dotless : '.' ∉ letters) :
    splitDots letters = [letters] := by
  induction letters with
  | nil => rfl
  | cons letter rest ih =>
      rw [List.mem_cons, not_or] at dotless
      rw [splitDots, if_neg (Ne.symm dotless.1), ih dotless.2]

/-- A plain name, which has letters but no dot, is a path of a single segment. -/
theorem route_of_plain {name : String} (named : name ≠ "") (dotless : '.' ∉ name.toList) :
    route name = [name] := by
  simp [route, named, segments, splitDots_of_dotless dotless]

namespace Document

/-- A field that a document lacks is written at its end. -/
theorem put_of_absent {document : Document} {name : String} (absent : name ∉ names document)
    (value : Value) : put document name value = document ++ [(name, value)] := by
  induction document with
  | nil => rfl
  | cons field rest ih =>
      obtain ⟨current, first⟩ := field
      simp only [names, List.map_cons, List.mem_cons, not_or] at absent
      rw [put, if_neg (Ne.symm absent.1), ih absent.2, List.cons_append]

/-- Fields of different names are written one behind the other. -/
theorem foldl_put_of_distinct {document : Document} {fields : List (String × Value)}
    (distinct : (names (document ++ fields)).Nodup) :
    fields.foldl (fun grown field => put grown field.1 field.2) document = document ++ fields := by
  induction fields generalizing document with
  | nil => rw [List.append_nil, List.foldl_nil]
  | cons field fields ih =>
      rw [List.append_cons] at distinct ⊢
      have absent : field.1 ∉ names document := by
        simp only [names, List.map_append, List.map_cons, List.map_nil] at distinct
        have apart := (List.nodup_append.mp (List.nodup_append.mp distinct).1).2.2
        exact fun inside => apart _ inside _ List.mem_cons_self rfl
      rw [List.foldl_cons, put_of_absent absent]
      exact ih distinct

/-- An update of which no path begins with a field leaves it. The induction follows the assignments,
each of which writes the field that its path begins with. -/
theorem field?_update_of_apart {document result : Document} {scopes : List ArrayFilter}
    {changes : List (String × Value)} {name : String}
    (apart : ∀ change ∈ changes, (segments change.1).head? ≠ some name)
    (success : update scopes document changes = .ok result) :
    field? result name = field? document name := by
  induction changes generalizing document with
  | nil =>
      cases success
      rfl
  | cons change rest ih =>
      obtain ⟨path, new⟩ := change
      obtain ⟨here, later⟩ := List.forall_mem_cons.mp apart
      rw [update] at success
      split at success
      · cases success
      · split at success
        · cases success
        · rename_i changed assigned
          rw [ih later success]
          cases goes : segments path with
          | nil => exact absurd goes (segments_ne_nil path)
          | cons head tail =>
              rw [goes] at here assigned
              obtain ⟨child, -, written⟩ := field?_assign assigned
              rw [written name, if_neg fun same => here (by rw [same, List.head?_cons])]

end Document

namespace Filter

mutual

/-- The equalities of which a filter is a conjunction, from left to right, as names and operands.
Other filters are none. -/
def equalities? : Filter → Option (List (String × Value))
  | .all parts => equalitiesOf? parts
  | .comparison field .eq operand => some [(field, operand)]
  | _ => none

/-- The equalities of which several filters are conjunctions, from left to right. -/
def equalitiesOf? : List Filter → Option (List (String × Value))
  | [] => some []
  | part :: parts =>
      match equalities? part, equalitiesOf? parts with
      | some first, some rest => some (first ++ rest)
      | _, _ => none

end

/-- The equalities of several filters are those of the first and those of the rest. -/
theorem equalitiesOf?_cons_eq_some_iff {part : Filter} {parts : List Filter}
    {fields : List (String × Value)} :
    equalitiesOf? (part :: parts) = some fields ↔
      ∃ first rest, part.equalities? = some first ∧ equalitiesOf? parts = some rest ∧
        fields = first ++ rest := by
  rw [equalitiesOf?]
  cases part.equalities? <;> cases equalitiesOf? parts <;> simp [eq_comm]

mutual

/-- A conjunction of equalities fixes their fields. -/
theorem fixFields_of_equalities {fields : List (String × Value)}
    (plain : ∀ field ∈ fields, '.' ∉ field.1.toList) :
    ∀ {filter : Filter}, filter.equalities? = some fields → ∀ seed,
      fixFields seed filter =
        fields.foldl (fun grown field => Document.put grown field.1 field.2) seed
  | .all parts, conjunction, seed => by
      rw [equalities?] at conjunction
      rw [fixFields]
      exact fixFieldsOfAll_of_equalities plain conjunction seed
  | .comparison field .eq operand, conjunction, seed => by
      cases conjunction
      rw [fixFields, if_neg (plain _ List.mem_cons_self), List.foldl_cons, List.foldl_nil]

/-- The same for several filters. -/
theorem fixFieldsOfAll_of_equalities {fields : List (String × Value)}
    (plain : ∀ field ∈ fields, '.' ∉ field.1.toList) :
    ∀ {parts : List Filter}, equalitiesOf? parts = some fields → ∀ seed,
      fixFieldsOfAll seed parts =
        fields.foldl (fun grown field => Document.put grown field.1 field.2) seed
  | [], conjunction, seed => by
      cases conjunction
      rfl
  | part :: parts, conjunction, seed => by
      obtain ⟨first, rest, here, later, rfl⟩ := equalitiesOf?_cons_eq_some_iff.mp conjunction
      obtain ⟨plainHere, plainLater⟩ := List.forall_mem_append.mp plain
      rw [fixFieldsOfAll, fixFields_of_equalities plainHere here,
        fixFieldsOfAll_of_equalities plainLater later, List.foldl_append]

end

mutual

/-- A conjunction of equalities accepts exactly when each of them does. -/
theorem accepts_of_equalities (reached : String → List Value) :
    ∀ {filter : Filter} {fields : List (String × Value)}, filter.equalities? = some fields →
      filter.accepts reached =
        fields.all fun field => Operator.eq.accepts field.2 (reached field.1)
  | .all parts, fields, conjunction => by
      rw [equalities?] at conjunction
      rw [accepts, allAccept_of_equalities reached conjunction]
  | .comparison field .eq operand, fields, conjunction => by
      cases conjunction
      rw [accepts, List.all_cons, List.all_nil, Bool.and_true]

/-- The same for several filters. -/
theorem allAccept_of_equalities (reached : String → List Value) :
    ∀ {parts : List Filter} {fields : List (String × Value)}, equalitiesOf? parts = some fields →
      allAccept reached parts =
        fields.all fun field => Operator.eq.accepts field.2 (reached field.1)
  | [], fields, conjunction => by
      cases conjunction
      rfl
  | part :: parts, fields, conjunction => by
      obtain ⟨first, rest, here, later, rfl⟩ := equalitiesOf?_cons_eq_some_iff.mp conjunction
      rw [allAccept, accepts_of_equalities reached here, allAccept_of_equalities reached later,
        List.all_append]

end

/-- The filter is a conjunction of equalities, each on a plain field of its own with a value in
which there is no NaN. In the value, as in every value, the fields of a document differ. -/
structure Fixes (filter : Filter) (fields : List (String × Value)) : Prop where
  conjunction : filter.equalities? = some fields
  distinct : (Document.names fields).Nodup
  named : ∀ field ∈ fields, field.1 ≠ ""
  dotless : ∀ field ∈ fields, '.' ∉ field.1.toList
  formed : ∀ field ∈ fields, field.2.WellFormed
  proper : ∀ field ∈ fields, field.2.NaNFree

/-- No path of an update begins with one of the fields. -/
def Avoids (changes : Document) (fields : List (String × Value)) : Prop :=
  ∀ change ∈ changes, ∀ field ∈ fields, (segments change.1).head? ≠ some field.1

/-- The document has the fields with their values. -/
def Held (document : Document) (fields : List (String × Value)) : Prop :=
  ∀ field ∈ fields, Document.field? document field.1 = some field.2

section Fixes

variable {filter : Filter} {fields : List (String × Value)}

/-- The fields that are fixed have the values that are asked for. -/
theorem Fixes.held_equalityFields (fixes : filter.Fixes fields) :
    Held filter.equalityFields fields := by
  have written : filter.equalityFields = fields := by
    rw [equalityFields, fixFields_of_equalities fixes.dotless fixes.conjunction]
    exact Document.foldl_put_of_distinct fixes.distinct
  intro field inside
  rw [written]
  exact Document.field?_of_mem fixes.distinct inside

/-- A document with the fields and their values matches. -/
theorem Fixes.matches_of_held (fixes : filter.Fixes fields) {document : Document}
    (held : Held document fields) : document.matches filter = true := by
  rw [Document.matches, accepts_of_equalities _ fixes.conjunction, List.all_eq_true]
  intro field inside
  have single := route_of_plain (fixes.named field inside) (fixes.dotless field inside)
  have itself := (Value.alike_self_iff (fixes.formed field inside)).mpr (fixes.proper field inside)
  simp [Operator.accepts, Document.reach_field single (held field inside), Value.meets, itself]

/-- An update that avoids the fields leaves their values. -/
theorem Held.update {document result : Document} (held : Held document fields) {changes : Document}
    (avoids : Avoids changes fields) (success : Document.update [] document changes = .ok result) :
    Held result fields := by
  intro field inside
  rw [Document.field?_update_of_apart (fun change assigned => avoids change assigned field inside)
    success]
  exact held field inside

end Fixes

end Filter

namespace Shelf

variable {shelf : Shelf} {filter : Filter}

/-- The shelf has grown by a document with the fields, under a key. -/
def Upserted (shelf grown : Shelf) (fields : List (String × Value)) (key : String) : Prop :=
  ∃ document, Filter.Held document fields ∧ grown = shelf.put key document

variable [KeySource] {fields : List (String × Value)} {changes : Document}

/-- An update that finds no match adds a document with the fields of the filter. -/
theorem upserted_of_updateOne (fixes : filter.Fixes fields) (avoids : Filter.Avoids changes fields)
    (unmatched : shelf.Unmatched filter) {grown : Shelf}
    (success : shelf.updateOne filter changes true = .ok grown) :
    ∃ key, shelf.find? key = none ∧ shelf.Upserted grown fields key := by
  have missing := (firstMatch?_eq_none_iff shelf filter).mpr unmatched
  rcases updated_of_updateOne success with
    ⟨key, document, -, first, -⟩ | ⟨-, -, added, updated, key, vacant, -, rfl⟩ | ⟨-, never, -⟩
  · rw [(firstMatch?_eq_some_iff _ _ _ _).mpr first] at missing
    cases missing
  · exact ⟨key, vacant, added, fixes.held_equalityFields.update avoids updated, rfl⟩
  · cases never

/-- Once a document with the fields has been added, an update finds it, and changes it at most. -/
theorem Upserted.updateOne (fixes : filter.Fixes fields) (avoids : Filter.Avoids changes fields)
    (unmatched : shelf.Unmatched filter) {grown changed : Shelf} {key : String}
    (upserted : shelf.Upserted grown fields key)
    (success : grown.updateOne filter changes true = .ok changed) :
    shelf.Upserted changed fields key := by
  obtain ⟨document, held, rfl⟩ := upserted
  have sole := soleMatch_put unmatched key (fixes.matches_of_held held)
  obtain ⟨result, updated, rfl⟩ := (updateOne_of_chosen sole.chosen success).2 key document rfl
  refine ⟨result, held.update avoids updated, ?_⟩
  apply Table.eq_of_find?
  intro other
  simp only [Table.find?_put]
  split <;> rfl

end Shelf

namespace Memory

/-- The store after the same update of a single document has been asked for several times, whatever
was answered. -/
def updateAgain [KeySource] (name : String) (filter : Filter) (changes : Document) (times : Nat)
    (memory : Memory) : Memory :=
  (fun state => (backend.updateOne name filter changes true state).2)^[times] memory

/-- A collection that has grown by a document with the fields has still grown by that document alone
after any repetition of the update. The induction is on the number of repetitions; one that fails
changes nothing. -/
theorem upserted_updateAgain [KeySource] {shelf : Shelf} {filter : Filter}
    {fields : List (String × Value)}
    {changes : Document} (fixes : filter.Fixes fields) (avoids : Filter.Avoids changes fields)
    (unmatched : shelf.Unmatched filter) {memory : Memory} {name key : String}
    (upserted : shelf.Upserted (memory.shelf name) fields key) (times : Nat) :
    shelf.Upserted ((updateAgain name filter changes times memory).shelf name) fields key ∧
      ∀ other, name ≠ other →
        (updateAgain name filter changes times memory).shelf other = memory.shelf other := by
  induction times with
  | zero => exact ⟨upserted, fun _ _ => rfl⟩
  | succ times ih =>
      obtain ⟨before, others⟩ := ih
      rw [updateAgain, Function.iterate_succ_apply', ← updateAgain]
      -- The last repetition acts on whatever state the ones before it have left.
      generalize updateAgain name filter changes times memory = state at before others ⊢
      have step : (backend.updateOne name filter changes true state).2 =
          (change name (fun shelf => shelf.updateOne filter changes true) state).2 := rfl
      rw [step]
      constructor
      · rw [shelf_change, if_pos rfl]
        cases edited : Shelf.updateOne (state.shelf name) filter changes true with
        | ok changed => exact before.updateOne fixes avoids unmatched edited
        | error error => exact before
      · intro other apart
        rw [shelf_change, if_neg apart, others other apart]

/-- A document that an update adds on behalf of a filter satisfies the filter, and goes on doing so.

For every state of the store and every filter that is a conjunction of equalities on plain fields,
each of its own and with a value in which there is no NaN: if no document matches, no path of the
update begins with one of the fields, and the update succeeds, then the collection has grown by one
document under a key that was vacant. All other documents are unchanged, in every collection. The
document is the only match; it is counted once, and it is the one that is found. All of this still
holds after any number of repetitions of the update, each of which may succeed or fail: it may
change the document, but adds none. -/
theorem upsert_satisfies_filter [KeySource] {memory after : Memory} {name : String}
    {filter : Filter} {fields : List (String × Value)} {changes : Document}
    (fixes : filter.Fixes fields) (avoids : Filter.Avoids changes fields)
    (unmatched : (memory.shelf name).Unmatched filter)
    (success : backend.updateOne name filter changes true memory = (.ok (), after)) :
    ∃ key, (memory.shelf name).find? key = none ∧
      ∀ times, ∃ later document, updateAgain name filter changes times after = later ∧
        later.shelf name = (memory.shelf name).put key document ∧
        (later.shelf name).SoleMatch filter key document ∧
        backend.count name filter later = (.ok 1, later) ∧
        backend.findOne name filter {} later = (.ok (some document), later) ∧
        ∀ other, name ≠ other → later.shelf other = memory.shelf other := by
  have changed : change name (fun shelf => shelf.updateOne filter changes true) memory =
      (.ok (), after) := success
  obtain ⟨edited, others⟩ := edited_of_change changed
  obtain ⟨key, vacant, upserted⟩ := Shelf.upserted_of_updateOne fixes avoids unmatched edited
  refine ⟨key, vacant, fun times => ?_⟩
  obtain ⟨⟨document, held, grown⟩, kept⟩ :=
    upserted_updateAgain fixes avoids unmatched upserted times
  have sole := Shelf.soleMatch_put unmatched key (fixes.matches_of_held held)
  rw [← grown] at sole
  refine ⟨_, document, rfl, grown, sole, ?_, ?_, fun other apart => ?_⟩
  · exact congrArg (fun number => (Except.ok number, _)) sole.count
  · exact congrArg (fun found => (Except.ok found, _)) (sole.scanOne rfl)
  · exact (kept other apart).trans (others other apart)

/-- Of the names in the filter one returns in the update, within another field. Repetitions are
refused: their first path goes into a number that the second one has written. -/
theorem upsert_satisfies_filter_of_refused :
    let filter : Filter := .all [.all [Filter.eq "kind" (.string "x")],
      Filter.eq "tags" (.array [.int32 1, .document [("k", .null)]])]
    let changes : Document := [("n.kind.k", .int32 1), ("n.kind", .int32 5)]
    ∃ memory, seeded [("items", [("id", .string "a"), ("kind", .string "y")])] = .ok memory ∧
      ∃ after, backend.updateOne "items" filter changes true memory = (.ok (), after) ∧
        (backend.updateOne "items" filter changes true after).1 =
          .error (.invalidParams (.blockedField ["k"] .int32)) ∧
        ∃ later, updateAgain "items" filter changes 2 after = later ∧
          backend.count "items" filter later = (.ok 1, later) := by
  intro filter changes
  obtain ⟨memory, built⟩ : ∃ memory,
      seeded [("items", [("id", .string "a"), ("kind", .string "y")])] = .ok memory := ⟨_, rfl⟩
  obtain ⟨after, success⟩ : ∃ after,
      backend.updateOne "items" filter changes true memory = (.ok (), after) := by
    cases built
    exact ⟨_, rfl⟩
  have fixes : filter.Fixes
      [("kind", .string "x"), ("tags", .array [.int32 1, .document [("k", .null)]])] := by
    constructor
    · rfl
    · decide
    · simp
    · decide
    · simp [Value.WellFormed, itemsWellFormed, fieldsWellFormed, Document.names]
    · simp [Value.NaNFree, itemsNaNFree, fieldsNaNFree, Value.IsNaN]
  have avoids : Filter.Avoids changes
      [("kind", .string "x"), ("tags", .array [.int32 1, .document [("k", .null)]])] := by
    have first : segments "n.kind.k" = ["n", "kind", "k"] := by decide +kernel
    have second : segments "n.kind" = ["n", "kind"] := by decide +kernel
    intro change assigned field inside
    simp only [changes, List.mem_cons, List.not_mem_nil, or_false] at assigned inside
    obtain rfl | rfl := assigned <;> obtain rfl | rfl := inside <;> simp [first, second]
  have unmatched : (memory.shelf "items").Unmatched filter := by
    cases built
    exact (Shelf.firstMatch?_eq_none_iff _ _).mp rfl
  obtain ⟨key, -, repeated⟩ := upsert_satisfies_filter fixes avoids unmatched success
  obtain ⟨later, document, reached, -, -, counted, -⟩ := repeated 2
  refine ⟨memory, built, after, success, ?_, later, reached, counted⟩
  cases built
  cases success
  decide +kernel

end Memory

end DocStore
