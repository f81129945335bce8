import DocStore.Proofs.RepositoryRuns

/-!
# Users created for a subject

Finding the user of a subject, or creating one, decides by the subject and writes under the
identifier. When nobody is bound to the subject, the given user takes the place of whoever has the
identifier. Main statement: every stored user is kept exactly when this cannot happen, because a
fault is set, a user is bound to the subject, or nobody else has the identifier. The users under
other identifiers are kept in any case.

Both repositories do to what they store what `Table.findOrPut` does to a table: one to the users,
the other to their documents.
-/

namespace DocStore

namespace Table

variable {α : Type}

/-- Every binding of a table is still there in another. -/
def Within (before after : Table α) : Prop :=
  ∀ key entry, before.find? key = some entry → after.find? key = some entry

/-- Nothing is lost when nothing changes. -/
theorem Within.refl (table : Table α) : table.Within table := fun _ _ bound => bound

/-- Binding a key loses nothing exactly when the key had no other entry. -/
theorem within_put_iff (table : Table α) (key : String) (entry : α) :
    table.Within (table.put key entry) ↔ ∀ taken, table.find? key = some taken → taken = entry := by
  constructor
  · intro within taken bound
    have after := within key taken bound
    rw [find?_put, if_pos rfl] at after
    exact (Option.some.inj after).symm
  · intro vacant other bound found
    rw [find?_put]
    split
    · rename_i same
      subst same
      rw [vacant bound found]
    · exact found

/-- A first entry that passes a test is found exactly when some entry passes it. -/
theorem exists_first?_iff (table : Table α) (test : α → Bool) :
    (∃ binding, table.first? test = some binding) ↔
      ∃ key entry, table.find? key = some entry ∧ test entry = true := by
  constructor
  · rintro ⟨⟨key, entry⟩, first⟩
    exact ⟨key, entry, find?_of_first? first⟩
  · rintro ⟨key, entry, bound, passed⟩
    cases first : table.first? test with
    | some binding => exact ⟨binding, rfl⟩
    | none =>
        have listed := (mem_bindings_iff table key entry).mpr bound
        exact absurd passed (List.find?_eq_none.mp first _ listed)

/-- Finding an entry or binding a new one loses nothing exactly when an entry is found or the key
had no other entry. -/
theorem within_findOrPut_iff (table : Table α) (test : α → Bool) (key : String) (entry : α) :
    table.Within (table.findOrPut test key entry).2 ↔
      (∃ other found, table.find? other = some found ∧ test found = true) ∨
        ∀ taken, table.find? key = some taken → taken = entry := by
  rw [← exists_first?_iff]
  cases first : table.first? test with
  | some binding =>
      simp only [findOrPut, first]
      exact iff_of_true (Within.refl table) (.inl ⟨binding, rfl⟩)
  | none =>
      simp only [findOrPut, first, within_put_iff]
      constructor
      · exact .inr
      · rintro (⟨binding, found⟩ | vacant)
        · cases found
        · exact vacant

/-- Finding an entry or binding a new one leaves the other keys as they are. -/
theorem find?_findOrPut (table : Table α) (test : α → Bool) {key other : String} (entry : α)
    (different : other ≠ key) :
    (table.findOrPut test key entry).2.find? other = table.find? other := by
  cases first : table.first? test with
  | some binding => simp only [findOrPut, first]
  | none => simp only [findOrPut, first, find?_put, if_neg (Ne.symm different)]

end Table

/-- A property that is not empty is not refused. -/
theorem requireText_eq_ok (lookup : Lookup) {wanted : String} (nonempty : wanted ≠ "") :
    requireText lookup wanted = .ok () := by
  have text : wanted.isEmpty = false := by
    simpa [String.isEmpty_iff] using nonempty
  simp [requireText, text]

namespace UserTable

/-- A table settles a subject by finding its user or binding the given one. -/
theorem state_findBySubOrCreate (user : User) {sub : String} (nonempty : sub ≠ "")
    (table : Table User) :
    (answer (.findBySubOrCreate user sub) table).2 =
      (table.findOrPut (User.containsAuth · sub) user.id user).2 := by
  simp only [answer, requireText_eq_ok .sub nonempty]
  rfl

end UserTable

namespace UserCollection

variable [KeySource] {memory : Memory}

/-- A lookup leaves the store as it is, also when the document that it finds holds no user. -/
theorem state_findOne (filter : Filter) (memory : Memory) :
    (findOne (Collection.inMemory "users") filter memory).2 = memory := by
  simp only [findOne, Collection.findOne, Collection.inMemory, Memory.backend]
  cases (memory.shelf "users").scanOne filter ScanOptions.byId with
  | none => rfl
  | some document =>
      simp only [Consumer.feed, Consumer.collector]
      cases User.codec.ofDocument document with
      | ok user => rfl
      | error error => cases error <;> rfl

/-- A lookup finds nobody exactly when no document matches. -/
theorem findOne_eq_notFound_iff (conventional : (memory.shelf "users").Conventional)
    (filter : Filter) :
    (findOne (Collection.inMemory "users") filter memory).1 = .error .notFound ↔
      (memory.shelf "users").firstMatch? filter = none := by
  have scanned := Shelf.scanOne_byId conventional filter
  simp only [findOne, Collection.findOne, Collection.inMemory, Memory.backend, scanned]
  cases (memory.shelf "users").firstMatch? filter with
  | none => simp
  | some binding =>
      simp only [Option.map_some, Consumer.feed, Consumer.collector, Codec.ofDocument]
      cases User.codec.decode binding.2 <;> simp [firstOf]

/-- A query of several identifiers leaves the store as it is, also when a document holds no user. -/
theorem state_findByIds (ids : List String) (memory : Memory) :
    (findByIds (Collection.inMemory "users") ids memory).2 = memory := by
  cases ids with
  | nil => rfl
  | cons id ids =>
      simp only [findByIds, List.isEmpty_cons, Bool.false_eq_true, if_false, Collection.find,
        Collection.inMemory, Memory.backend]
      cases (Consumer.collector User.codec).drain _ [] with
      | mk answer found => cases answer <;> rfl

/-- A store settles a subject by finding a matching document or putting that of the given user under
the user's identifier. A matching document that holds no user is an error, but it is kept. -/
theorem shelf_findBySubOrCreate (conventional : (memory.shelf "users").Conventional) (user : User)
    {sub : String} (nonempty : sub ≠ "") :
    (answer (Collection.inMemory "users") (.findBySubOrCreate user sub) memory).2.shelf "users" =
      ((memory.shelf "users").findOrPut (Document.matches · (Lookup.filter .sub sub)) user.id
        user.encode).2 := by
  have unchanged := state_findOne (Lookup.filter .sub sub) memory
  have missed := findOne_eq_notFound_iff conventional (Lookup.filter .sub sub)
  simp only [answer, requireText_eq_ok .sub nonempty, findBySubOrCreate]
  cases looked : findOne (Collection.inMemory "users") (Lookup.filter .sub sub) memory with
  | mk result next =>
      rw [looked] at unchanged missed
      simp only at unchanged missed
      subst unchanged
      cases first : (next.shelf "users").firstMatch? (Lookup.filter .sub sub) with
      | none =>
          obtain rfl := missed.mpr first
          have absent : Table.first? (next.shelf "users")
              (Document.matches · (Lookup.filter .sub sub)) = none := first
          simp only [save_eq conventional, Table.findOrPut, absent]
          rw [Memory.shelf_withShelf, if_pos rfl]
      | some binding =>
          have present : Table.first? (next.shelf "users")
              (Document.matches · (Lookup.filter .sub sub)) = some binding := first
          -- A matching document is there, so whatever the lookup answers, it does not miss.
          have other : result ≠ .error .notFound := by
            intro same
            rw [missed.mp same] at first
            cases first
          simp only [Table.findOrPut, present]
          cases result with
          | ok found => rfl
          | error error =>
              cases error with
              | notFound => exact absurd rfl other
              | _ => rfl

/-- Every request leaves documents of users under their identifiers. There is one case for each
request; those that only look leave the store as it is. -/
theorem conventional_answer (conventional : (memory.shelf "users").Conventional)
    (request : Request) :
    Shelf.Conventional
      ((answer (Collection.inMemory "users") request memory).2.shelf "users") := by
  cases request with
  | findByIds ids =>
      rw [answer, state_findByIds]
      exact conventional
  | find lookup wanted =>
      have unchanged := state_findOne (lookup.filter wanted) memory
      simp only [answer]
      cases requireText lookup wanted with
      | error error => exact conventional
      | ok _ =>
          cases looked : findOne (Collection.inMemory "users") (lookup.filter wanted) memory with
          | mk result next =>
              rw [looked] at unchanged
              obtain rfl : next = memory := unchanged
              cases result <;> exact conventional
  | findBySubOrCreate user sub =>
      by_cases empty : sub = ""
      · subst empty
        exact conventional
      · rw [shelf_findBySubOrCreate conventional user empty, Table.findOrPut]
        split
        · exact conventional
        · exact Table.Each.put conventional user.identifiedBy_encode
  | create user =>
      have asked : (Collection.inMemory "users").count (Filter.id user.id) memory =
          (.ok ((memory.shelf "users").count (Filter.id user.id)), memory) := rfl
      simp only [answer, create, asked]
      cases (memory.shelf "users").count (Filter.id user.id) with
      | zero =>
          simp only [done, save_eq conventional]
          exact Memory.each_withShelf conventional fun each => each.put user.identifiedBy_encode
      | succ number => exact conventional
  | save user =>
      simp only [answer, done, save_eq conventional]
      exact Memory.each_withShelf conventional fun each => each.put user.identifiedBy_encode
  | remove id =>
      simp only [answer, remove_eq conventional]
      exact Memory.each_withShelf conventional fun each => each.erase id

end UserCollection

namespace Repository

variable {σ : Type}

/-- What requests keep of the state, a run of calls keeps. Faults do not touch the state. -/
theorem run_keeps {repository : Repository σ} {holds : σ → Prop}
    (kept : ∀ request state, holds state → holds (repository.answer request state).2)
    (calls : List RepositoryCall) {guarded : Guarded σ} (start : holds guarded.state) :
    holds (repository.run calls guarded).2.state := by
  induction calls generalizing guarded with
  | nil => exact start
  | cons call rest ih =>
      cases call with
      | setFault fault => exact ih start
      | request request =>
          have served : holds (repository.serve request guarded).2.state := by
            obtain ⟨fault, state⟩ := guarded
            cases fault with
            | some error => exact start
            | none => exact kept request state start
          exact ih served

/-- What settling a subject leaves of the entries that a state holds. All of them are kept exactly
when a fault is set, an entry is bound to the subject, or the key of the new entry has no other one;
and the entries of other keys are kept in any case. -/
def KeepsUnlessTaken {α : Type} (entries : σ → Table α) (bound : α → Bool) (key : String)
    (entry : α) (before after : Guarded σ) : Prop :=
  ((entries before.state).Within (entries after.state) ↔
      before.fault ≠ none ∨
        (∃ other found, (entries before.state).find? other = some found ∧ bound found = true) ∨
          ∀ taken, (entries before.state).find? key = some taken → taken = entry) ∧
    ∀ other, other ≠ key → (entries after.state).find? other = (entries before.state).find? other

/-- A repository that settles a subject by finding an entry or binding a new one, and does nothing
while a fault is set, keeps the entries so. -/
theorem keepsUnlessTaken_serve {α : Type} {repository : Repository σ} {request : Request}
    {entries : σ → Table α} {bound : α → Bool} {key : String} {entry : α} {before : Guarded σ}
    (settled : entries (repository.answer request before.state).2 =
      ((entries before.state).findOrPut bound key entry).2) :
    KeepsUnlessTaken entries bound key entry before (repository.serve request before).2 := by
  obtain ⟨fault, state⟩ := before
  cases fault with
  | some error =>
      refine ⟨?_, fun _ _ => rfl⟩
      exact iff_of_true (Table.Within.refl _) (.inl (Option.some_ne_none error))
  | none =>
      constructor
      · change (entries state).Within (entries (repository.answer request state).2) ↔ _
        rw [settled, Table.within_findOrPut_iff]
        simp
      · intro other different
        change (entries (repository.answer request state).2).find? other = _
        rw [settled, Table.find?_findOrPut _ _ _ different]

/-- After any calls, finding the user of a subject or creating one keeps every stored user exactly
when a fault is set, a stored user is bound to the subject, or nobody else is stored under the
identifier of the given user. The users under other identifiers are kept in any case. The same holds
of the documents of a store in which documents stand under their identifiers at first. -/
theorem users_kept_iff [KeySource] (calls : List RepositoryCall) (table : Guarded (Table User))
    {store : Guarded Memory} (conventional : (store.state.shelf "users").Conventional) (user : User)
    {sub : String} (nonempty : sub ≠ "") :
    KeepsUnlessTaken (fun users => users) (User.containsAuth · sub) user.id user
        (UserTable.repository.run calls table).2
        (UserTable.repository.serve (.findBySubOrCreate user sub)
          (UserTable.repository.run calls table).2).2 ∧
      KeepsUnlessTaken (Memory.shelf · "users") (Document.matches · (Lookup.filter .sub sub))
        user.id user.encode ((UserCollection.ofBackend Memory.backend).run calls store).2
        ((UserCollection.ofBackend Memory.backend).serve (.findBySubOrCreate user sub)
          ((UserCollection.ofBackend Memory.backend).run calls store).2).2 := by
  constructor
  · exact keepsUnlessTaken_serve (UserTable.state_findBySubOrCreate user nonempty _)
  · have kept (request : Request) (state : Memory) (each : (state.shelf "users").Conventional) :
        Shelf.Conventional
          (((UserCollection.ofBackend Memory.backend).answer request state).2.shelf "users") :=
      UserCollection.conventional_answer each request
    have reached := run_keeps kept calls conventional
    exact keepsUnlessTaken_serve (UserCollection.shelf_findBySubOrCreate reached user nonempty)

/-- A user who is created under a vacant identifier leaves the user who was there before. -/
theorem users_kept_under_vacant_identifier :
    let ann : User := { id := "a", name := "ann", email := "ann@x" }
    let bob : User := { id := "b", name := "bob", email := "bob@x", auths := [⟨"x", "x|1"⟩] }
    let table := (UserTable.repository.run [.request (.save ann)] ⟨none, Table.empty⟩).2
    table.state.Within
      (UserTable.repository.serve (.findBySubOrCreate bob "x|1") table).2.state := by
  intro ann bob table
  have empty : ((⟨none, Memory.empty⟩ : Guarded Memory).state.shelf "users").Conventional :=
    Table.each_empty
  refine ((users_kept_iff [.request (.save ann)] ⟨none, Table.empty⟩ empty bob
    (by decide)).1.1).mpr (.inr (.inr ?_))
  intro taken found
  have vacant : table.state.find? bob.id = none := by decide +kernel
  rw [vacant] at found
  cases found

/-- A user who is created for a new subject under the identifier of another user replaces that user,
in a table as in a store. -/
theorem user_replaced_under_taken_identifier :
    let ann : User := { id := "a", name := "ann", email := "ann@x" }
    let eve : User := { id := "a", name := "eve", email := "eve@x" }
    let table := (UserTable.repository.run [.request (.save ann)] ⟨none, Table.empty⟩).2
    let store := ((UserCollection.ofBackend Memory.backend).run [.request (.save ann)]
      ⟨none, Memory.empty⟩).2
    ¬ table.state.Within
        (UserTable.repository.serve (.findBySubOrCreate eve "x|1") table).2.state ∧
      ¬ (store.state.shelf "users").Within
        (((UserCollection.ofBackend Memory.backend).serve (.findBySubOrCreate eve "x|1")
          store).2.state.shelf "users") := by
  intro ann eve table store
  constructor
  · intro within
    have kept := within "a" ann (by decide +kernel)
    have replaced : (UserTable.repository.serve (.findBySubOrCreate eve "x|1") table).2.state.find?
        "a" = some eve := by decide +kernel
    rw [replaced] at kept
    exact absurd kept (by decide +kernel)
  · intro within
    have empty : (Memory.empty.shelf "users").Conventional := Table.each_empty
    have conventional : (store.state.shelf "users").Conventional :=
      UserCollection.conventional_answer empty (.save ann)
    have settled := UserCollection.shelf_findBySubOrCreate conventional eve
      (show "x|1" ≠ "" by decide)
    have outcome : (store.state.shelf "users").Within
        ((UserCollection.answer (Collection.inMemory "users") (.findBySubOrCreate eve "x|1")
          store.state).2.shelf "users") := within
    rw [settled, Table.within_findOrPut_iff, ← Table.exists_first?_iff] at outcome
    obtain ⟨binding, first⟩ | vacant := outcome
    · have unbound : ((store.state.shelf "users").first?
          (Document.matches · (Lookup.filter .sub "x|1"))).isNone := by decide +kernel
      rw [first] at unbound
      cases unbound
    · have same : ann.encode = eve.encode := vacant ann.encode (by rfl)
      have names := congrArg (Document.field? · "name") same
      simp [User.encode, Document.field?, ann, eve, idField] at names

end Repository

end DocStore
