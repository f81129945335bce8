import DocStore.Proofs.Retries
import DocStore.Proofs.SingleMatches
import Mathlib.Data.List.Nodup

/-!
# Saved documents

A save looks for a document by a filter on the identifier field and stores the replacement under the
identifier that the replacement itself carries. The two need not be the same, and a save does not
insist. Main statement: in a collection under the convention a document that carries the identifier
under which it is saved is found under it afterwards, and no other one is. In a batch this holds as
long as no save gets in the way of another one, and none does if the identifiers differ and each
document carries its own.
-/

namespace DocStore

/-- The filter on an identifier accepts the document. Besides the identifier itself, an array of
which it is an item is accepted. -/
def Document.AnswersTo (document : Document) (identifier : String) : Prop :=
  document.matches (Filter.id identifier) = true

/-- A document answers to its string identifier and to no other one. -/
theorem Document.IdentifiedBy.answersTo_iff {document : Document} {identifier : String}
    (carried : document.IdentifiedBy identifier) (other : String) :
    document.AnswersTo other ↔ identifier = other := by
  rw [Document.AnswersTo, carried.matches_id, beq_iff_eq]

namespace Action

variable {σ : Type}

/-- Actions succeed in turn exactly when the first one does, and the rest from where it leads. -/
theorem inTurn_cons_eq_ok_iff {first : Action σ Unit} {rest : List (Action σ Unit)}
    {before after : σ} :
    inTurn (first :: rest) before = (.ok (), after) ↔
      ∃ next, first before = (.ok (), next) ∧ inTurn rest next = (.ok (), after) := by
  rw [inTurn]
  cases first before with
  | mk answer next => cases answer <;> simp

/-- Actions that succeed in turn succeed up to any point, and from there on. -/
theorem inTurn_append_of_ok {earlier later : List (Action σ Unit)} {before after : σ}
    (success : inTurn (earlier ++ later) before = (.ok (), after)) :
    ∃ between, inTurn earlier before = (.ok (), between) ∧
      inTurn later between = (.ok (), after) := by
  induction earlier generalizing before with
  | nil => exact ⟨before, rfl, success⟩
  | cons first rest ih =>
      obtain ⟨next, done, further⟩ := inTurn_cons_eq_ok_iff.mp success
      obtain ⟨between, reached, behind⟩ := ih further
      exact ⟨between, inTurn_cons_eq_ok_iff.mpr ⟨next, done, reached⟩, behind⟩

end Action

namespace Shelf

/-- No document matches, except for one that stands under the key. -/
def MatchesOnlyAt (shelf : Shelf) (filter : Filter) (key : String) : Prop :=
  Table.Each (fun own document => document.matches filter = true → own = key) shelf

variable {shelf changed : Shelf} {filter : Filter} {key : String}

/-- Under the convention only the document of an identifier answers to it. -/
theorem Conventional.matchesOnlyAt (conventional : shelf.Conventional) (identifier : String) :
    shelf.MatchesOnlyAt (Filter.id identifier) identifier := by
  intro own document found accepted
  exact ((conventional own document found).answersTo_iff identifier).mp accepted

variable [KeySource]

/-- A replacement that does not match itself brings no match anywhere. -/
theorem MatchesOnlyAt.replaceOne (only : shelf.MatchesOnlyAt filter key) {sought : Filter}
    {replacement : Document} {upsert : Bool} (refused : replacement.matches filter = false)
    (success : shelf.replaceOne sought replacement upsert = .ok changed) :
    changed.MatchesOnlyAt filter key := by
  refine Table.Each.replaceOne only ?_ success
  intro other accepted
  rw [refused] at accepted
  cases accepted

/-- A match that replaces the only match, or is added for want of one, is the only match. -/
theorem MatchesOnlyAt.soleMatch (only : shelf.MatchesOnlyAt filter key) {replacement : Document}
    (accepted : replacement.matches filter = true)
    (success : shelf.replaceOne filter replacement true = .ok changed) :
    ∃ own, changed.SoleMatch filter own replacement := by
  rcases replaced_of_replaceOne success with
    ⟨taken, previous, first, own, -, -, rfl⟩ | ⟨unmatched, -, own, -, -, rfl⟩ | ⟨-, never, -⟩
  · have here : taken = key := only taken previous first.1 first.2.1
    have unmatched : Unmatched (shelf.erase taken) filter := by
      intro other stored found
      rw [Table.find?_erase] at found
      split at found
      · cases found
      · rename_i apart
        have elsewhere : other ≠ key := fun same => apart (here.trans same.symm)
        exact Bool.eq_false_iff.mpr fun passes => elsewhere (only other stored found passes)
    exact ⟨own, soleMatch_put unmatched own accepted⟩
  · exact ⟨own, soleMatch_put unmatched own accepted⟩
  · cases never

/-- The only match stays the only one when a document that does not match replaces another one: it
is not what is sought, so it is not taken out. -/
theorem SoleMatch.replaceOne {document : Document} (sole : shelf.SoleMatch filter key document)
    {sought : Filter} {replacement : Document} {upsert : Bool}
    (unsought : document.matches sought = false) (refused : replacement.matches filter = false)
    (success : shelf.replaceOne sought replacement upsert = .ok changed) :
    changed.SoleMatch filter key document := by
  have only : shelf.MatchesOnlyAt filter key :=
    fun own stored found accepted => (sole.2 own stored found).mp accepted
  have spared := (replaceOne_of_chosen (shelf.chosen_firstMatch? sought) success).1
  have found : changed.find? key = some document := by
    apply spared key document _ sole.1
    -- What is taken out matches what is sought, and the document does not.
    intro same
    obtain ⟨binding, chosen, rfl⟩ := Option.map_eq_some_iff.mp same
    obtain ⟨stored, passes, -⟩ := (firstMatch?_eq_some_iff _ _ _ _).mp chosen
    rw [sole.1] at stored
    cases stored
    rw [unsought] at passes
    cases passes
  refine ⟨found, fun other stored held => ⟨?_, ?_⟩⟩
  · exact only.replaceOne refused success other stored held
  · rintro rfl
    rw [found] at held
    cases held
    exact (sole.2 _ _ sole.1).mpr rfl

end Shelf

/-- Counting what answers to an identifier yields one, and a read of it that skips nothing hands the
document to the consumer, with all its fields. -/
def Memory.FoundUnder [KeySource] (memory : Memory) (name identifier : String)
    (document : Document) : Prop :=
  (Collection.inMemory name).count (Filter.id identifier) memory = (.ok 1, memory) ∧
    ∀ (κ : Type) (consumer : Consumer κ) (sink : κ) (options : ScanOptions),
      options.skip.getD 0 = 0 →
      (Collection.inMemory name).findOne (Filter.id identifier) options consumer (memory, sink) =
        ((consumer.feed document sink).1.map fun _ => (),
          (memory, (consumer.feed document sink).2))

namespace Collection

/-- Where the identifiers of the saves differ, no other save shares the identifier of one. -/
theorem fst_ne_of_nodup {earlier later : List (String × Document)} {save : String × Document}
    (distinct : ((earlier ++ save :: later).map (·.1)).Nodup) :
    ∀ other ∈ earlier ++ later, other.1 ≠ save.1 := by
  rw [List.map_append, List.map_cons, List.nodup_middle, List.nodup_cons, ← List.map_append]
    at distinct
  intro other listed same
  exact distinct.1 (same ▸ List.mem_map_of_mem listed)

section Saves

variable [KeySource] {memory after : Memory} {name identifier : String} {document : Document}

/-- The only document that answers to an identifier is found under it. -/
theorem foundUnder_of_soleMatch {key : String}
    (sole : (memory.shelf name).SoleMatch (Filter.id identifier) key document) :
    memory.FoundUnder name identifier document := by
  constructor
  · exact congrArg (fun number => (Except.ok number, memory)) sole.count
  · intro κ consumer sink options unskipped
    rw [findOne_inMemory, sole.scanOne unskipped]
    cases fed : consumer.feed document sink with
    | mk answer filled => cases answer <;> simp [fed, Except.map]

/-- A save that succeeds replaces the document that answers to the identifier, or adds one. -/
theorem replaceOne_of_saveOne
    (success : (inMemory name).saveOne identifier document memory = (.ok (), after)) :
    (memory.shelf name).replaceOne (Filter.id identifier) document true =
      .ok (after.shelf name) := by
  have changed : Memory.change name
      (fun shelf => shelf.replaceOne (Filter.id identifier) document true) memory =
        (.ok (), after) := success
  exact (Memory.edited_of_change changed).1

/-- Saves that succeed in turn keep what each of their replacements keeps of the collection. -/
theorem inTurn_saves_keep (holds : Shelf → Prop) {saves : List (String × Document)}
    (kept : ∀ save ∈ saves, ∀ shelf changed, holds shelf →
      shelf.replaceOne (Filter.id save.1) save.2 true = .ok changed → holds changed)
    (start : holds (memory.shelf name))
    (success : Action.inTurn (saves.map fun save => (inMemory name).saveOne save.1 save.2) memory =
      (.ok (), after)) : holds (after.shelf name) := by
  induction saves generalizing memory with
  | nil =>
      cases success
      exact start
  | cons first rest ih =>
      obtain ⟨next, done, further⟩ := Action.inTurn_cons_eq_ok_iff.mp success
      have reached : holds (next.shelf name) :=
        kept first List.mem_cons_self _ _ start (replaceOne_of_saveOne done)
      exact ih (fun save inside => kept save (List.mem_cons_of_mem _ inside)) reached further

/-- Of documents saved in turn one is found if it answers to its identifier and the others do not,
and if it answers to no identifier that is saved later. The saves before it bring no match, with its
own save it becomes the only match, and the saves behind it leave it in place. -/
theorem foundUnder_of_inTurn (conventional : (memory.shelf name).Conventional)
    {earlier later : List (String × Document)} {save : String × Document}
    (own : save.2.AnswersTo save.1)
    (others : ∀ other ∈ earlier ++ later, ¬ other.2.AnswersTo save.1)
    (unsought : ∀ other ∈ later, ¬ save.2.AnswersTo other.1)
    (success : Action.inTurn ((earlier ++ save :: later).map fun save =>
      (inMemory name).saveOne save.1 save.2) memory = (.ok (), after)) :
    after.FoundUnder name save.1 save.2 := by
  have refused : ∀ other ∈ earlier ++ later, other.2.matches (Filter.id save.1) = false :=
    fun other inside => Bool.eq_false_iff.mpr (others other inside)
  rw [List.map_append, List.map_cons] at success
  obtain ⟨before, first, further⟩ := Action.inTurn_append_of_ok success
  obtain ⟨saved, done, last⟩ := Action.inTurn_cons_eq_ok_iff.mp further
  have only : (before.shelf name).MatchesOnlyAt (Filter.id save.1) save.1 := by
    refine inTurn_saves_keep (fun shelf => shelf.MatchesOnlyAt (Filter.id save.1) save.1) ?_
      (conventional.matchesOnlyAt save.1) first
    intro other inside shelf changed held replaced
    exact held.replaceOne (refused other (List.mem_append_left _ inside)) replaced
  obtain ⟨key, sole⟩ := only.soleMatch own (replaceOne_of_saveOne done)
  have kept : (after.shelf name).SoleMatch (Filter.id save.1) key save.2 := by
    refine inTurn_saves_keep (fun shelf => shelf.SoleMatch (Filter.id save.1) key save.2) ?_
      sole last
    intro other inside shelf changed held replaced
    exact held.replaceOne (Bool.eq_false_iff.mpr (unsought other inside))
      (refused other (List.mem_append_right _ inside)) replaced
  exact foundUnder_of_soleMatch kept

/-- Documents that are saved together, when that succeeds, are saved in turn. -/
theorem inTurn_of_saveAll {identifiers : List String} {documents : List Document}
    (success : (inMemory name).saveAll identifiers documents memory = (.ok (), after)) :
    Action.inTurn ((identifiers.zip documents).map fun save =>
      (inMemory name).saveOne save.1 save.2) memory = (.ok (), after) := by
  by_cases missing : identifiers = [] ∨ documents = []
  · have nothing : identifiers.zip documents = [] := List.zip_eq_nil_iff.mpr missing
    rw [nothing]
    rcases missing with rfl | rfl <;> simpa [saveAll, Action.inTurn] using success
  · by_cases same : identifiers.length = documents.length
    · rwa [saveAll_eq_inTurn name same, zipWith_saveOne] at success
    · rw [not_or] at missing
      simp [saveAll, missing, same] at success

/-- Documents saved together under the identifiers that they carry are all found, if the identifiers
differ. Then no document answers to the identifier of another one. -/
theorem foundUnder_of_distinct (conventional : (memory.shelf name).Conventional)
    {identifiers : List String} {documents : List Document} (distinct : identifiers.Nodup)
    (carried : documents.map (fun document => Document.field? document idField) =
      identifiers.map fun identifier => some (.string identifier))
    (success : (inMemory name).saveAll identifiers documents memory = (.ok (), after)) :
    ∀ save ∈ identifiers.zip documents, after.FoundUnder name save.1 save.2 := by
  intro save inside
  have same : identifiers.length = documents.length := by
    simpa using (congrArg List.length carried).symm
  have identified := identified_zip carried
  have named : ((identifiers.zip documents).map (·.1)).Nodup := by
    rwa [List.map_fst_zip (Nat.le_of_eq same)]
  have inTurn := inTurn_of_saveAll success
  have own := identified save inside
  obtain ⟨earlier, later, split⟩ := List.append_of_mem inside
  rw [split] at inTurn identified named
  have apart := fst_ne_of_nodup named
  refine foundUnder_of_inTurn conventional ((own.answersTo_iff _).mpr rfl) ?_ ?_ inTurn
  · intro other listed answers
    have present : other ∈ earlier ++ save :: later :=
      List.perm_middle.mem_iff.mpr (List.mem_cons_of_mem _ listed)
    exact apart other listed (((identified other present).answersTo_iff _).mp answers)
  · intro other listed answers
    exact apart other (List.mem_append_right _ listed) ((own.answersTo_iff _).mp answers).symm

/-- What is saved under an identifier that it carries is found under it. In a collection under the
convention, after a save that succeeds, exactly one document answers to the identifier, and a read
of it yields the replacement, with all its fields, whatever stood there before. The same holds of
every document of a batch of saves that succeeds, if it answers to its own identifier and to none
that is saved later, and if no other document of the batch answers to its identifier. So it holds
of all of them when each carries its own identifier and the identifiers differ, and then the batch
succeeds. -/
theorem saved_documents_are_found (conventional : (memory.shelf name).Conventional) :
    (∀ identifier replacement after, Document.AnswersTo replacement identifier →
      (inMemory name).saveOne identifier replacement memory = (.ok (), after) →
      after.FoundUnder name identifier replacement) ∧
    (∀ identifiers documents after,
      (inMemory name).saveAll identifiers documents memory = (.ok (), after) →
      ∀ earlier save later, identifiers.zip documents = earlier ++ save :: later →
        save.2.AnswersTo save.1 →
        (∀ other ∈ earlier ++ later, ¬ Document.AnswersTo other.2 save.1) →
        (∀ other ∈ later, ¬ save.2.AnswersTo other.1) →
        after.FoundUnder name save.1 save.2) ∧
    ∀ identifiers documents, identifiers.Nodup →
      (documents.map fun document => Document.field? document idField) =
        (identifiers.map fun identifier => some (.string identifier)) →
      ∃ after, (inMemory name).saveAll identifiers documents memory = (.ok (), after) ∧
        ∀ save ∈ identifiers.zip documents, after.FoundUnder name save.1 save.2 := by
  refine ⟨?_, ?_, ?_⟩
  · intro identifier replacement after own success
    obtain ⟨key, sole⟩ :=
      (conventional.matchesOnlyAt identifier).soleMatch own (replaceOne_of_saveOne success)
    exact foundUnder_of_soleMatch sole
  · intro identifiers documents after success earlier save later split own others unsought
    have inTurn := inTurn_of_saveAll success
    rw [split] at inTurn
    exact foundUnder_of_inTurn conventional own others unsought inTurn
  · intro identifiers documents distinct carried
    have success := saveAll_eq conventional carried
    exact ⟨_, success, foundUnder_of_distinct conventional distinct carried success⟩

end Saves

/-- A document that carries its identifier among others takes the place of the stored one, and of a
batch the second document does. -/
theorem saved_documents_are_found_by_array :
    ∃ memory, Memory.seeded [("items", [("id", .string "a")])] = .ok memory ∧
      (∃ after, (inMemory "items").saveOne "a" [("id", .array [.string "z", .string "a"])] memory =
          (.ok (), after) ∧
        after.FoundUnder "items" "a" [("id", .array [.string "z", .string "a"])]) ∧
      (∃ after, (inMemory "items").saveAll ["b", "a"]
          [[("id", .string "c")], [("id", .array [.string "a"])]] memory = (.ok (), after) ∧
        after.FoundUnder "items" "a" [("id", .array [.string "a"])]) ∧
      ∃ after, (inMemory "items").saveAll ["a", "b"]
          [[("id", .string "a"), ("n", .int32 1)], [("id", .string "b")]] memory = (.ok (), after) ∧
        after.FoundUnder "items" "a" [("id", .string "a"), ("n", .int32 1)] := by
  have built : Memory.seeded [("items", [("id", .string "a")])] = .ok _ := rfl
  have seedIdentified : ∀ seed ∈ [("items", [("id", Value.string "a")])],
      ∃ identifier, Document.IdentifiedBy seed.2 identifier := by
    intro seed inside
    rw [List.mem_singleton.mp inside]
    exact ⟨"a", rfl⟩
  have conventional := conventional_seeded seedIdentified built "items"
  obtain ⟨one, several, all⟩ := saved_documents_are_found conventional
  refine ⟨_, built, ⟨_, rfl, one _ _ _ rfl rfl⟩, ⟨_, rfl, ?_⟩, ?_⟩
  · refine several ["b", "a"] [[("id", .string "c")], [("id", .array [.string "a"])]] _ rfl
      [("b", [("id", .string "c")])] ("a", [("id", .array [.string "a"])]) [] rfl rfl ?_ ?_
    · intro other inside
      rw [List.mem_singleton.mp inside]
      exact Bool.eq_false_iff.mp rfl
    · simp
  · obtain ⟨after, success, found⟩ := all ["a", "b"]
      [[("id", .string "a"), ("n", .int32 1)], [("id", .string "b")]] (by decide) rfl
    exact ⟨after, success, found _ List.mem_cons_self⟩

/-- A save does not insist on the identifier. A document that carries another one is stored under
that, and one that carries none is stored as well; neither is found. In a batch a document that
carries a later identifier besides its own gives way to the later save. A batch of identifiers
without documents succeeds and saves nothing. -/
theorem saved_documents_need_not_be_found :
    (Memory.empty.shelf "items").Conventional ∧
      (∀ replacement ∈ [[("id", .string "b")], [("n", .int32 1)], [("id", .int32 1)]],
        ∃ after, (inMemory "items").saveOne "a" replacement Memory.empty = (.ok (), after) ∧
          (inMemory "items").count (Filter.id "a") after = (.ok 0, after)) ∧
      ∀ documents ∈ [[[("id", .array [.string "a", .string "b"])], [("id", .string "b")]], []],
        ∃ after, (inMemory "items").saveAll ["a", "b"] documents Memory.empty = (.ok (), after) ∧
          (inMemory "items").count (Filter.id "a") after = (.ok 0, after) := by
  refine ⟨Table.each_empty, ?_, ?_⟩
  · intro replacement inside
    simp only [List.mem_cons, List.not_mem_nil, or_false] at inside
    obtain rfl | rfl | rfl := inside <;> exact ⟨_, rfl, rfl⟩
  · intro documents inside
    simp only [List.mem_cons, List.not_mem_nil, or_false] at inside
    obtain rfl | rfl := inside <;> exact ⟨_, rfl, rfl⟩

end Collection

end DocStore
