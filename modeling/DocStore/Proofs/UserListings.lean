import DocStore.Proofs.SubjectCreation
import Mathlib.Data.List.Nodup

/-!
# Users by their identifiers

A request for several users lists identifiers, perhaps some of them twice, and perhaps some that
nobody has. The users are gathered in the order of the table or of the scan, and then brought into
the order of the request. Main statement: in every state that calls lead to, the answer lists the
stored users with these identifiers, each of them once, in the order in which the identifiers are
first asked for, and there is no other such list.
-/

namespace DocStore

/-- No identifier is lost, and none is made up, when repetitions are left out. -/
theorem mem_firstOccurrences {ids : List String} {id : String} :
    id ∈ firstOccurrences ids ↔ id ∈ ids := by
  induction ids with
  | nil => rfl
  | cons first rest ih =>
      rw [firstOccurrences, List.mem_cons, List.mem_cons, List.mem_filter, ih, bne_iff_ne]
      by_cases same : id = first <;> simp [same]

/-- Without repetitions identifiers stand in the order of their first places. The induction follows
the list: the first identifier has the first place, and of the others it is taken out. -/
theorem pairwise_firstOccurrences (ids : List String) :
    (firstOccurrences ids).Pairwise fun left right => ids.idxOf left < ids.idxOf right := by
  induction ids with
  | nil => exact List.Pairwise.nil
  | cons first rest ih =>
      have place {id : String} (inside : id ∈ (firstOccurrences rest).filter (· != first)) :
          (first :: rest).idxOf id = rest.idxOf id + 1 :=
        List.idxOf_cons_ne rest (bne_iff_ne.mp (List.mem_filter.mp inside).2).symm
      rw [firstOccurrences, List.pairwise_cons]
      constructor
      · intro id inside
        rw [List.idxOf_cons_self, place inside]
        exact Nat.succ_pos _
      · apply (ih.filter (· != first)).imp_of_mem
        intro left right leftInside rightInside below
        rw [place leftInside, place rightInside]
        exact Nat.succ_lt_succ below

/-- Among users with different identifiers the last one of an identifier is the one who has it. -/
theorem lastOf_eq_some_iff {users : List User} (distinct : (users.map User.id).Nodup) (id : String)
    (user : User) : lastOf id users = some user ↔ user ∈ users ∧ user.id = id := by
  have listed {found : User} (last : lastOf id users = some found) :
      found ∈ users ∧ found.id = id := by
    unfold lastOf at last
    have passed := List.find?_some last
    exact ⟨List.mem_reverse.mp (List.mem_of_find?_eq_some last), beq_iff_eq.mp passed⟩
  refine ⟨listed, ?_⟩
  rintro ⟨inside, rfl⟩
  cases last : lastOf user.id users with
  | none =>
      have differs := List.find?_eq_none.mp last user (List.mem_reverse.mpr inside)
      exact absurd (beq_self_eq_true user.id) differs
  | some other =>
      obtain ⟨present, same⟩ := listed last
      exact congrArg some (List.inj_on_of_nodup_map distinct present inside same)

/-- The users of a kind who have one of the identifiers, each of them once, in the order in which
the identifiers are first asked for. -/
structure RequestedUsers (stored : User → Prop) (ids : List String) (users : List User) : Prop where
  members : ∀ user, user ∈ users ↔ stored user ∧ user.id ∈ ids
  ordered : users.Pairwise fun left right => ids.idxOf left.id < ids.idxOf right.id

namespace RequestedUsers

variable {stored : User → Prop} {ids : List String} {users : List User}

/-- Nobody is listed twice. -/
theorem nodup (requested : RequestedUsers stored ids users) : users.Nodup := by
  apply requested.ordered.imp
  rintro user _ below rfl
  exact Nat.lt_irrefl _ below

/-- There is one such list. -/
theorem unique (requested : RequestedUsers stored ids users) {others : List User}
    (alike : RequestedUsers stored ids others) : others = users := by
  have same : others.Perm users :=
    (List.perm_ext_iff_of_nodup alike.nodup requested.nodup).mpr fun user =>
      (alike.members user).trans (requested.members user).symm
  apply same.eq_of_pairwise _ alike.ordered requested.ordered
  intro left right _ _ below above
  exact absurd above (Nat.lt_asymm below)

end RequestedUsers

/-- Users with different identifiers are brought into the order of the request, without those who
are not asked for. -/
theorem requestedUsers_inRequestOrder {users : List User} (distinct : (users.map User.id).Nodup)
    (ids : List String) : RequestedUsers (· ∈ users) ids (inRequestOrder ids users) where
  members user := by
    simp only [inRequestOrder, List.mem_filterMap, lastOf_eq_some_iff distinct,
      mem_firstOccurrences]
    constructor
    · rintro ⟨id, asked, inside, rfl⟩
      exact ⟨inside, asked⟩
    · rintro ⟨inside, asked⟩
      exact ⟨user.id, asked, inside, rfl⟩
  ordered := by
    rw [inRequestOrder, List.pairwise_filterMap]
    apply (pairwise_firstOccurrences ids).imp
    intro left right below first foundFirst second foundSecond
    obtain ⟨-, rfl⟩ := (lastOf_eq_some_iff distinct left first).mp foundFirst
    obtain ⟨-, rfl⟩ := (lastOf_eq_some_iff distinct right second).mp foundSecond
    exact below

namespace UserTable

/-- The users of a table. -/
def Stores (table : Table User) (user : User) : Prop := ∃ key, table.find? key = some user

/-- Users stand under their identifiers. -/
def InPlace (table : Table User) : Prop := Table.Each (fun key user => user.id = key) table

variable {table : Table User}

/-- The table of a list of users has them under their identifiers. -/
theorem inPlace_ofUsers (users : List User) : InPlace (ofUsers users) := by
  have grown : ∀ table : Table User, InPlace table →
      InPlace ((users.map fun user => (user.id, user)).foldl
        (fun table binding => table.put binding.1 binding.2) table) := by
    induction users with
    | nil => exact fun _ inPlace => inPlace
    | cons user rest ih => exact fun table inPlace => ih _ (Table.Each.put inPlace rfl)
  exact grown Table.empty Table.each_empty

/-- Every request leaves users under their identifiers. There is one case for each request. -/
theorem inPlace_answer (inPlace : InPlace table) (request : Request) :
    InPlace (answer request table).2 := by
  cases request with
  | findByIds ids => exact inPlace
  | find lookup wanted =>
      simp only [answer]
      cases requireText lookup wanted <;> exact inPlace
  | findBySubOrCreate user sub =>
      simp only [answer]
      cases requireText .sub sub with
      | error error => exact inPlace
      | ok _ =>
          simp only [Table.findOrPut]
          cases table.first? (Lookup.holds .sub sub) with
          | none => exact Table.Each.put inPlace rfl
          | some binding => exact inPlace
  | create user =>
      simp only [answer, Table.insertNew?]
      split
      · rename_i grown added
        split at added
        · cases added
        · cases added
          exact Table.Each.put inPlace rfl
      · exact inPlace
  | save user => exact Table.Each.put inPlace rfl
  | remove id => exact Table.Each.erase inPlace id

/-- Users under their identifiers have different ones. -/
theorem nodup_ids (inPlace : InPlace table) : (table.values.map User.id).Nodup := by
  have keys : table.values.map User.id = table.bindings.map (·.1) := by
    rw [Table.values, List.map_map]
    apply List.map_congr_left
    intro binding inside
    exact inPlace binding.1 binding.2 ((Table.mem_bindings_iff table _ _).mp inside)
  rw [keys]
  apply List.pairwise_map.mpr
  apply table.ascending.imp
  intro left right below same
  rw [same] at below
  exact String.lt_irrefl _ below

/-- The users of a table who are asked for, in the order of the request. -/
theorem requestedUsers (inPlace : InPlace table) (ids : List String) :
    RequestedUsers (Stores table) ids
      (inRequestOrder ids (table.filter fun user => ids.contains user.id).values) := by
  have gathered := requestedUsers_inRequestOrder
    (nodup_ids (Table.Each.filter inPlace fun user => ids.contains user.id)) ids
  refine ⟨fun user => ?_, gathered.ordered⟩
  rw [gathered.members, Table.mem_values_iff]
  simp only [Table.find?_filter, Option.filter_eq_some_iff, List.contains_iff_mem]
  constructor
  · rintro ⟨⟨key, stored, -⟩, asked⟩
    exact ⟨⟨key, stored⟩, asked⟩
  · rintro ⟨⟨key, stored⟩, asked⟩
    exact ⟨⟨key, stored, asked⟩, asked⟩

end UserTable

namespace UserCollection

/-- The users whose documents a store has in the collection of users. -/
def Stores (memory : Memory) (user : User) : Prop :=
  ∃ key document, (memory.shelf "users").find? key = some document ∧
    User.codec.ofDocument document = .ok user

/-- A store that mirrors a table has the users of the table. -/
theorem stores_mirrored {table : Table User} {memory : Memory} (mirrors : Mirrors table memory)
    (user : User) : Stores memory user ↔ UserTable.Stores table user := by
  simp only [Stores, UserTable.Stores, mirrors.documents, Table.find?_mapEntries,
    Option.map_eq_some_iff]
  constructor
  · rintro ⟨key, _, ⟨stored, found, rfl⟩, read⟩
    rw [User.ofDocument_encode (mirrors.users key stored found).2] at read
    cases read
    exact ⟨key, found⟩
  · rintro ⟨key, found⟩
    exact ⟨key, user.encode, ⟨user, found, rfl⟩,
      User.ofDocument_encode (mirrors.users key user found).2⟩

end UserCollection

namespace Repository

variable {σ : Type}

/-- Asked for the users of some identifiers, a repository lists those of the stored users who have
one, once each and in the order of the request. This is the only such list, and the repository stays
as it is. -/
def ListsRequested (repository : Repository σ) (stores : σ → User → Prop) (ids : List String)
    (guarded : Guarded σ) : Prop :=
  ∃ found, repository.serve (.findByIds ids) guarded = (.ok (.users found), guarded) ∧
    ∀ users, RequestedUsers (stores guarded.state) ids users ↔ users = found

/-- It is enough that the list which answers the request is one. -/
theorem listsRequested_of_answer {repository : Repository σ} {stores : σ → User → Prop}
    {ids : List String} {guarded : Guarded σ} (unfaulted : guarded.fault = none) {found : List User}
    (answered : repository.answer (.findByIds ids) guarded.state =
      (.ok (.users found), guarded.state))
    (requested : RequestedUsers (stores guarded.state) ids found) :
    repository.ListsRequested stores ids guarded := by
  obtain ⟨fault, state⟩ := guarded
  obtain rfl : fault = none := unfaulted
  refine ⟨found, ?_, fun users => ⟨requested.unique, fun same => same ▸ requested⟩⟩
  simp only [serve, answered]

/-- After any calls by which no fault is left, the users of a list of identifiers are listed as
they are asked for: exactly the stored users with these identifiers, each of them once, in the
order of the first places of their identifiers in the list. The list may have repetitions, unknown
identifiers and empty ones. This holds of a repository over a table, which may have users at first,
and of the one over the store in memory, if the times of the users in the calls are read back. -/
theorem users_listed_as_requested [KeySource] {calls : List RepositoryCall}
    (unfaulted : faultAfter calls none = none) (ids : List String) :
    (∀ users, UserTable.repository.ListsRequested UserTable.Stores ids
      (UserTable.repository.run calls ⟨none, UserTable.ofUsers users⟩).2) ∧
    ((∀ request, .request request ∈ calls → request.Readable) →
      (UserCollection.ofBackend Memory.backend).ListsRequested UserCollection.Stores ids
        ((UserCollection.ofBackend Memory.backend).run calls ⟨none, Memory.empty⟩).2) := by
  constructor
  · intro users
    have kept (request : Request) (table : Table User) (inPlace : UserTable.InPlace table) :
        UserTable.InPlace (UserTable.repository.answer request table).2 :=
      UserTable.inPlace_answer inPlace request
    have start : UserTable.InPlace
        (⟨none, UserTable.ofUsers users⟩ : Guarded (Table User)).state :=
      UserTable.inPlace_ofUsers users
    have inPlace := run_keeps kept calls start
    exact listsRequested_of_answer ((fault_run _ calls _).trans unfaulted) rfl
      (UserTable.requestedUsers inPlace ids)
  · intro readable
    have start : Alike ⟨none, Table.empty⟩ ⟨none, Memory.empty⟩ := ⟨rfl, Mirrors.empty⟩
    have mirrors := (run_mirrored start readable).2.2
    have inPlace : UserTable.InPlace
        (UserTable.repository.run calls ⟨none, Table.empty⟩).2.state :=
      fun key user found => (mirrors.users key user found).1
    have requested := UserTable.requestedUsers inPlace ids
    refine listsRequested_of_answer ((fault_run _ calls _).trans unfaulted)
      (UserCollection.findByIds_mirrored mirrors ids) ⟨fun user => ?_, requested.ordered⟩
    rw [UserCollection.stores_mirrored mirrors]
    exact requested.members user

/-- Two users, one of them under the empty identifier, a fault in between that is cleared, and a
request with repetitions and an identifier that nobody has. -/
theorem users_listed_as_requested_twice :
    let ann : User := { id := "", name := "ann", email := "ann@x" }
    let bob : User := { id := "b", name := "bob", email := "bob@x", auths := [⟨"x", "x|1"⟩] }
    let calls : List RepositoryCall :=
      [.request (.create ann), .setFault (some .notFound), .request (.remove ""), .setFault none,
        .request (.findBySubOrCreate bob "x|1")]
    let ids := ["b", "z", "b", "", "b"]
    ∃ store, ((UserCollection.ofBackend Memory.backend).run calls ⟨none, Memory.empty⟩).2 = store ∧
      (UserCollection.ofBackend Memory.backend).ListsRequested UserCollection.Stores ids store ∧
      ∃ table, (UserTable.repository.run calls ⟨none, Table.empty⟩).2 = table ∧
        UserTable.repository.ListsRequested UserTable.Stores ids table ∧
        (UserTable.repository.serve (.findByIds ids) table).1 = .ok (.users [bob, ann]) := by
  intro ann bob calls ids
  have unfaulted : faultAfter calls none = none := rfl
  have readable : ∀ request, .request request ∈ calls → request.Readable := by
    intro request inside brought carried
    simp only [calls, List.mem_cons, List.not_mem_nil, or_false, RepositoryCall.request.injEq,
      reduceCtorEq, false_or] at inside
    obtain rfl | rfl | rfl := inside
    · exact Option.some.inj carried ▸ ⟨nofun, nofun⟩
    · cases carried
    · exact Option.some.inj carried ▸ ⟨nofun, nofun⟩
  obtain ⟨overTable, overStore⟩ := users_listed_as_requested unfaulted ids
  exact ⟨_, rfl, overStore readable, _, rfl, overTable [], by decide +kernel⟩

end Repository

end DocStore
