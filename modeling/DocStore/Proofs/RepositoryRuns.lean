import DocStore.Account.InCollection
import DocStore.Account.InTable
import DocStore.Proofs.UserDocuments

/-!
# The two repositories agree

The collection of users mirrors a table of users when it holds their documents under the same
keys. Every request is answered alike from a table and from a store that mirrors it, and leaves
them so. Hence no run of calls tells the repositories apart, from empty ones on.

The times of the users in the calls have to be read back from their texts. Nothing else is asked
of the calls: identifiers and properties may be empty, and users may share any of them.
-/

namespace DocStore

/-- The user that a request brings along. -/
def Request.user? : Request → Option User
  | .findBySubOrCreate user _ => some user
  | .create user => some user
  | .save user => some user
  | _ => none

/-- A request brings along no user whose times are not read back. -/
def Request.Readable (request : Request) : Prop :=
  ∀ user, request.user? = some user → user.TimesReadBack

/-- A call of a repository: a request, or a change of its fault. -/
inductive RepositoryCall where
  | request (request : Request)
  | setFault (fault : Option StoreError)

namespace Repository

variable {σ : Type}

/-- Runs calls one after the other and lists the answers to the requests among them. -/
def run (repository : Repository σ) :
    List RepositoryCall → Guarded σ → List (Except StoreError Answer) × Guarded σ
  | [], guarded => ([], guarded)
  | .setFault fault :: rest, guarded => run repository rest (guarded.withFault fault)
  | .request request :: rest, guarded =>
      match repository.serve request guarded with
      | (answer, next) =>
          match run repository rest next with
          | (answers, last) => (answer :: answers, last)

/-- The fault that is set after some calls. -/
def faultAfter : List RepositoryCall → Option StoreError → Option StoreError
  | [], fault => fault
  | .setFault fault :: rest, _ => faultAfter rest fault
  | .request _ :: rest, fault => faultAfter rest fault

/-- Requests leave the fault as it is, so that the last one that was set is in force. -/
theorem fault_run (repository : Repository σ) (calls : List RepositoryCall)
    (guarded : Guarded σ) :
    (repository.run calls guarded).2.fault = faultAfter calls guarded.fault := by
  induction calls generalizing guarded with
  | nil => rfl
  | cons call rest ih =>
      cases call with
      | setFault fault => exact ih (guarded.withFault fault)
      | request request =>
          have kept : (repository.serve request guarded).2.fault = guarded.fault := by
            obtain ⟨fault, state⟩ := guarded
            cases fault <;> rfl
          rw [faultAfter, ← kept]
          exact ih (repository.serve request guarded).2

/-- A request is answered with the fault that is set, and changes nothing. -/
theorem serve_injected {repository : Repository σ} {guarded : Guarded σ} {error : StoreError}
    (request : Request) (injected : guarded.fault = some error) :
    repository.serve request guarded = (.error error, guarded) := by
  obtain ⟨fault, state⟩ := guarded
  obtain rfl : fault = some error := injected
  exact repository.serve_of_fault request error state

end Repository

namespace User

/-- The document of a readable user holds the user. -/
theorem ofDocument_encode {user : User} (readable : user.TimesReadBack) :
    codec.ofDocument user.encode = .ok user := by
  have read : codec.decode user.encode = some user := decode_encode readable
  rw [Codec.ofDocument, read]

/-- The documents of readable users are collected as the users. -/
theorem drain_collector {users : List User} (readable : ∀ user ∈ users, user.TimesReadBack)
    (found : List User) :
    (Consumer.collector codec).drain ((users.map encode).map .ok) found =
      (.ok (), found ++ users) := by
  induction users generalizing found with
  | nil => simp [Consumer.drain, Consumer.finish, Consumer.collector]
  | cons user users ih =>
      have read := ofDocument_encode (readable user List.mem_cons_self)
      have later := ih (fun other inside => readable other (List.mem_cons_of_mem _ inside))
        (found ++ [user])
      have fed : (Consumer.collector codec).feed user.encode found =
          (.ok true, found ++ [user]) := by
        simp [Consumer.feed, Consumer.collector, read]
      rw [List.map_cons, List.map_cons, Consumer.drain, fed]
      simpa using later

end User

/-- Users stand under their identifiers, and their times are read back. -/
def UsersInPlace (table : Table User) : Prop :=
  Table.Each (fun key user => user.id = key ∧ user.TimesReadBack) table

/-- The collection of users holds the documents of a table of users. -/
structure Mirrors (table : Table User) (memory : Memory) : Prop where
  documents : memory.shelf "users" = table.mapEntries User.encode
  users : UsersInPlace table

namespace Mirrors

variable {table : Table User} {memory : Memory}

/-- The empty store mirrors the empty table. -/
theorem empty : Mirrors Table.empty Memory.empty where
  documents := rfl
  users := Table.each_empty

/-- Documents of users under their identifiers satisfy the convention. -/
theorem conventional (mirrors : Mirrors table memory) :
    (memory.shelf "users").Conventional := by
  intro key document found
  rw [mirrors.documents, Table.find?_mapEntries, Option.map_eq_some_iff] at found
  obtain ⟨user, stored, rfl⟩ := found
  exact (mirrors.users key user stored).1 ▸ user.identifiedBy_encode

/-- Saving a user on both sides keeps them alike. -/
theorem put (mirrors : Mirrors table memory) {user : User} (readable : user.TimesReadBack) :
    Mirrors (table.put user.id user)
      (memory.withShelf "users" ((memory.shelf "users").put user.id user.encode)) := by
  constructor
  · rw [Memory.shelf_withShelf, if_pos rfl, Table.mapEntries_put, mirrors.documents]
  · exact mirrors.users.put ⟨rfl, readable⟩

/-- Removing a user on both sides keeps them alike. -/
theorem erase (mirrors : Mirrors table memory) (id : String) :
    Mirrors (table.erase id)
      (memory.withShelf "users" ((memory.shelf "users").erase id)) := by
  constructor
  · rw [Memory.shelf_withShelf, if_pos rfl, Table.mapEntries_erase, mirrors.documents]
  · exact mirrors.users.erase id

end Mirrors

namespace UserTable

/-- In a table of users under their identifiers, every lookup finds the first user who has the
property; the identifier, which is looked up directly, belongs to one user at most. -/
theorem find_eq {table : Table User} (users : UsersInPlace table) (lookup : Lookup)
    (wanted : String) :
    find lookup wanted table =
      match table.first? (lookup.holds wanted) with
      | some (_, user) => .ok (.user user)
      | none => .error .notFound := by
  have direct : table.first? (Lookup.holds .id wanted) =
      (table.find? wanted).map fun user => (wanted, user) := by
    apply Table.first?_eq_of_unique
    intro key user found
    rw [Lookup.holds, (users key user found).1, beq_iff_eq]
  cases lookup with
  | id =>
      simp only [find, direct]
      cases table.find? wanted <;> rfl
  | _ =>
      simp only [find]
      cases table.first? _ <;> rfl

end UserTable

namespace UserCollection

variable {table : Table User} {memory : Memory}

/-- A user is counted under an identifier exactly when the table has one there. -/
theorem count_mirrored (mirrors : Mirrors table memory) (id : String) :
    (memory.shelf "users").count (Filter.id id) = 0 ↔ table.find? id = none := by
  rw [Shelf.count_eq_zero_iff, Shelf.firstMatch?_id mirrors.conventional, mirrors.documents,
    Table.find?_mapEntries]
  simp

variable [KeySource]

/-- A lookup in the collection finds the first user of the table who has the property. -/
theorem findOne_mirrored (mirrors : Mirrors table memory) (lookup : Lookup) (wanted : String) :
    findOne (Collection.inMemory "users") (lookup.filter wanted) memory =
      (match table.first? (lookup.holds wanted) with
        | some (_, user) => .ok user
        | none => .error .notFound, memory) := by
  have scanned : (memory.shelf "users").scanOne (lookup.filter wanted) ScanOptions.byId =
      (table.first? (lookup.holds wanted)).map fun binding => binding.2.encode := by
    rw [Shelf.scanOne_byId mirrors.conventional, mirrors.documents, Shelf.firstMatch?,
      Table.first?_mapEntries, Option.map_map]
    simp only [Lookup.matches_filter, Function.comp_def]
  have answered : Memory.backend.findOne "users" (lookup.filter wanted) ScanOptions.byId memory =
      (.ok ((table.first? (lookup.holds wanted)).map fun binding => binding.2.encode), memory) :=
    congrArg (fun found => (Except.ok found, memory)) scanned
  simp only [findOne, Collection.findOne, Collection.inMemory, answered]
  cases first : table.first? (lookup.holds wanted) with
  | none => rfl
  | some binding =>
      obtain ⟨key, user⟩ := binding
      have stored := (Table.find?_of_first? first).1
      have read := User.ofDocument_encode (mirrors.users key user stored).2
      simp [Consumer.feed, Consumer.collector, read, firstOf]

/-- Saving a user puts the document under the user's identifier. -/
theorem save_eq (conventional : (memory.shelf "users").Conventional) (user : User) :
    save (Collection.inMemory "users") user memory =
      (.ok (), memory.withShelf "users"
        ((memory.shelf "users").put user.id user.encode)) := by
  have replaced := Shelf.replaceOne_id conventional user.identifiedBy_encode
  have saved : (Collection.inMemory "users").saveOne user.id user.encode memory =
      Memory.change "users" (fun shelf =>
        shelf.replaceOne (Filter.id user.id) user.encode true) memory := rfl
  rw [save, User.toDocument_eq]
  simp only [saved, Memory.change, replaced]

/-- Removing a user erases the document under the identifier, whether there is one or not. -/
theorem remove_eq (conventional : (memory.shelf "users").Conventional) (id : String) :
    remove (Collection.inMemory "users") id memory =
      (.ok .done, memory.withShelf "users" ((memory.shelf "users").erase id)) := by
  have erased := Shelf.deleteOne_id conventional id
  simp only [remove, Collection.removeOne, Collection.inMemory, Memory.backend]
  cases outcome : (memory.shelf "users").deleteOne (Filter.id id) with
  | mk removed changed =>
      rw [outcome] at erased
      subst erased
      cases removed <;> rfl

/-- The users of several identifiers are found in the order of the table. -/
theorem findByIds_mirrored (mirrors : Mirrors table memory) (ids : List String) :
    findByIds (Collection.inMemory "users") ids memory =
      (.ok (.users (inRequestOrder ids (table.filter fun user => ids.contains user.id).values)),
        memory) := by
  have listed : (memory.shelf "users").scan
      (.comparison idField .anyOf (.array (ids.map Value.string)))
      (ScanOptions.diskUseAllowed {}) =
      (table.filter fun user => ids.contains user.id).values.map User.encode := by
    change (Table.filter (memory.shelf "users") _).values = _
    rw [mirrors.documents, Table.filter_mapEntries, Table.values_mapEntries]
    simp only [User.matches_anyOf]
  have readable : ∀ user ∈ (table.filter fun user => ids.contains user.id).values,
      user.TimesReadBack := by
    intro user inside
    obtain ⟨⟨key, _⟩, kept, rfl⟩ := List.mem_map.mp inside
    have stored := (Table.mem_bindings_iff table key _).mp (List.mem_filter.mp kept).1
    exact (mirrors.users key _ stored).2
  cases ids with
  | nil => rfl
  | cons id ids =>
      simp only [findByIds, List.isEmpty_cons, Bool.false_eq_true, if_false, Collection.find,
        Collection.inMemory, Memory.backend, listed, User.drain_collector readable,
        List.nil_append]

/-- The step of the simulation: a request is answered alike from a table and from a store that
mirrors it, and leaves them so. There is one case for each request. -/
theorem answer_mirrored (mirrors : Mirrors table memory) {request : Request}
    (readable : request.Readable) :
    (answer (Collection.inMemory "users") request memory).1 =
        (UserTable.answer request table).1 ∧
      Mirrors (UserTable.answer request table).2
        (answer (Collection.inMemory "users") request memory).2 := by
  cases request with
  | findByIds ids =>
      simp only [answer, UserTable.answer, findByIds_mirrored mirrors, true_and]
      exact mirrors
  | find lookup wanted =>
      simp only [answer, UserTable.answer]
      cases requireText lookup wanted with
      | error error => exact ⟨rfl, mirrors⟩
      | ok _ =>
          simp only [findOne_mirrored mirrors, UserTable.find_eq mirrors.users]
          cases table.first? (lookup.holds wanted) with
          | none => exact ⟨rfl, mirrors⟩
          | some binding => exact ⟨rfl, mirrors⟩
  | findBySubOrCreate user sub =>
      simp only [answer, UserTable.answer]
      cases requireText .sub sub with
      | error error => exact ⟨rfl, mirrors⟩
      | ok _ =>
          simp only [findBySubOrCreate, findOne_mirrored mirrors, Table.findOrPut]
          cases table.first? (Lookup.holds .sub sub) with
          | none =>
              simp only [save_eq mirrors.conventional, true_and]
              exact mirrors.put (readable user rfl)
          | some binding => exact ⟨rfl, mirrors⟩
  | create user =>
      have counted := count_mirrored mirrors user.id
      have asked : (Collection.inMemory "users").count (Filter.id user.id) memory =
          (.ok ((memory.shelf "users").count (Filter.id user.id)), memory) := rfl
      simp only [answer, UserTable.answer, create, asked]
      cases found : table.find? user.id with
      | none =>
          have vacant : table.insertNew? user.id user = some (table.put user.id user) :=
            (Table.insertNew?_eq_some_iff _ _ _ _).mpr ⟨found, rfl⟩
          simp only [counted.mpr found, vacant, done, save_eq mirrors.conventional, true_and]
          exact mirrors.put (readable user rfl)
      | some taken =>
          have refused : table.insertNew? user.id user = none := by
            simp [Table.insertNew?, Table.contains, found]
          cases number : (memory.shelf "users").count (Filter.id user.id) with
          | zero => exact absurd (counted.mp number) (by simp [found])
          | succ number =>
              simp only [refused, true_and]
              exact mirrors
  | save user =>
      simp only [answer, UserTable.answer, done, save_eq mirrors.conventional, true_and]
      exact mirrors.put (readable user rfl)
  | remove id =>
      simp only [answer, UserTable.answer, remove_eq mirrors.conventional, true_and]
      exact mirrors.erase id

end UserCollection

namespace Repository

/-- Both repositories keep the same fault, and states that mirror each other. -/
def Alike (table : Guarded (Table User)) (store : Guarded Memory) : Prop :=
  store.fault = table.fault ∧ Mirrors table.state store.state

/-- A request is served alike on both sides, by the fault that is set or by an answer. -/
theorem serve_mirrored [KeySource] {table : Guarded (Table User)} {store : Guarded Memory}
    (alike : Alike table store) {request : Request} (readable : request.Readable) :
    ((UserCollection.ofBackend Memory.backend).serve request store).1 =
        (UserTable.repository.serve request table).1 ∧
      Alike (UserTable.repository.serve request table).2
        ((UserCollection.ofBackend Memory.backend).serve request store).2 := by
  obtain ⟨fault, users⟩ := table
  obtain ⟨otherFault, memory⟩ := store
  obtain ⟨same, mirrors⟩ := alike
  obtain rfl : otherFault = fault := same
  cases otherFault with
  | some error => exact ⟨rfl, rfl, mirrors⟩
  | none =>
      obtain ⟨sameAnswer, stillMirrors⟩ := UserCollection.answer_mirrored mirrors readable
      exact ⟨sameAnswer, rfl, stillMirrors⟩

/-- Calls run alike on a table and on a store that mirrors it. The induction follows the calls. -/
theorem run_mirrored [KeySource] {table : Guarded (Table User)} {store : Guarded Memory}
    (alike : Alike table store) {calls : List RepositoryCall}
    (readable : ∀ request, .request request ∈ calls → request.Readable) :
    ((UserCollection.ofBackend Memory.backend).run calls store).1 =
        (UserTable.repository.run calls table).1 ∧
      Alike (UserTable.repository.run calls table).2
        ((UserCollection.ofBackend Memory.backend).run calls store).2 := by
  induction calls generalizing table store with
  | nil => exact ⟨rfl, alike⟩
  | cons call rest ih =>
      have later : ∀ request, .request request ∈ rest → request.Readable :=
        fun request inside => readable request (List.mem_cons_of_mem _ inside)
      cases call with
      | setFault fault => exact ih ⟨rfl, alike.2⟩ later
      | request request =>
          have step := serve_mirrored alike (readable request List.mem_cons_self)
          obtain ⟨sameAnswers, stillAlike⟩ := ih step.2 later
          simp only [run]
          exact ⟨by rw [step.1, sameAnswers], stillAlike⟩

/-- The repository over a table and the one over the store in memory, both empty at first and
without a fault, give equal answers to every run of calls. A request that follows calls by which a
fault is set is answered with that fault, and leaves both repositories as they are. -/
theorem repositories_agree [KeySource] {calls : List RepositoryCall}
    (readable : ∀ request, .request request ∈ calls → request.Readable) :
    ((UserCollection.ofBackend Memory.backend).run calls ⟨none, Memory.empty⟩).1 =
        (UserTable.repository.run calls ⟨none, Table.empty⟩).1 ∧
      ∀ error, faultAfter calls none = some error → ∀ request,
        (UserTable.repository.serve request
            (UserTable.repository.run calls ⟨none, Table.empty⟩).2 =
          (.error error, (UserTable.repository.run calls ⟨none, Table.empty⟩).2)) ∧
        (UserCollection.ofBackend Memory.backend).serve request
            ((UserCollection.ofBackend Memory.backend).run calls ⟨none, Memory.empty⟩).2 =
          (.error error,
            ((UserCollection.ofBackend Memory.backend).run calls ⟨none, Memory.empty⟩).2) := by
  have start : Alike ⟨none, Table.empty⟩ ⟨none, Memory.empty⟩ := ⟨rfl, Mirrors.empty⟩
  constructor
  · exact (run_mirrored start readable).1
  · intro error injected request
    constructor
    · exact serve_injected request ((fault_run _ calls _).trans injected)
    · exact serve_injected request ((fault_run _ calls _).trans injected)

/-- A user with a verification is created, missed while a fault is set, and found by subject. -/
theorem repositories_agree_on_lookups :
    let user : User :=
      { id := "a", name := "ann", email := "ann@x", auths := [⟨"x", "x|1"⟩],
        verification := some ⟨"code", ⟨0, 0⟩, false⟩ }
    let calls : List RepositoryCall :=
      [.request (.create user), .setFault (some .notFound), .request (.find .id "a"),
        .setFault none, .request (.findBySubOrCreate user "x|1")]
    ((UserCollection.ofBackend Memory.backend).run calls ⟨none, Memory.empty⟩).1 =
      (UserTable.repository.run calls ⟨none, Table.empty⟩).1 := by
  intro user calls
  have timely : user.TimesReadBack := by
    constructor
    · intro verification held
      obtain rfl : (⟨"code", ⟨0, 0⟩, false⟩ : Verification) = verification := Option.some.inj held
      change Instant.read? (Instant.text ⟨0, 0⟩) = some ⟨0, 0⟩
      decide +kernel
    · intro reset held
      cases held
  have readable : ∀ request, .request request ∈ calls → request.Readable := by
    intro request inside brought carried
    simp only [calls, List.mem_cons, List.not_mem_nil, or_false, RepositoryCall.request.injEq,
      reduceCtorEq, false_or] at inside
    obtain rfl | rfl | rfl := inside
    · exact Option.some.inj carried ▸ timely
    · cases carried
    · exact Option.some.inj carried ▸ timely
  exact (repositories_agree readable).1

end Repository

end DocStore
