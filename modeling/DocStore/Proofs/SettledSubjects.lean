import DocStore.Proofs.SingleMatches
import DocStore.Proofs.SubjectCreation

/-!
# Settled subjects

Finding the user of a subject, or creating one, may settle the subject: the user is found for it
from then on, and nobody else is created, whoever is offered. Main statement: the subject is settled
exactly when somebody was bound to it before, or the created user brings the identity along. Users
are stored as given, and the repositories bind nobody to a subject. A user without the identity
therefore leaves the subject open, and the next one is created as well.

A repository of documents has to read the created user back, which it can if its times are read back
from their texts.
-/

namespace DocStore

/-- Where no entry passes a test, an entry that is put there is the first to pass it, if it does. -/
theorem Table.first?_put_of_none {α : Type} {table : Table α} {test : α → Bool}
    (missed : table.first? test = none) (key : String) (entry : α) :
    (table.put key entry).first? test = if test entry then some (key, entry) else none := by
  have failing := (first?_eq_none_iff table test).mp missed
  cases passed : test entry with
  | true =>
      rw [if_pos rfl, first?_eq_some_iff, find?_put, if_pos rfl]
      refine ⟨rfl, passed, ?_⟩
      intro other bound stored passes
      rw [find?_put] at stored
      split at stored
      · rename_i same
        exact Std.le_of_eq same
      · rw [failing other bound stored] at passes
        cases passes
  | false =>
      rw [if_neg Bool.false_ne_true, first?_eq_none_iff]
      intro other bound stored
      rw [find?_put] at stored
      split at stored
      · cases stored
        exact passed
      · exact failing other bound stored

/-- The document of a verification is read as the verification with the time that its text names. -/
theorem Verification.decode_encode_eq (verification : Verification) :
    decode verification.encode = (Instant.read? verification.expiresAt.text).map
      fun time => { verification with expiresAt := time } := by
  cases read : Instant.read? verification.expiresAt.text <;>
    simp [decode, encode, Value.record?, Document.required, Document.field?, Value.instant?,
      Value.string?, Value.flag?, read]

/-- The document of a password reset is read as the reset with the time that its text names. -/
theorem PasswordReset.decode_encode_eq (reset : PasswordReset) :
    decode reset.encode = (Instant.read? reset.createdAt.text).map
      fun time => { reset with createdAt := time } := by
  cases read : Instant.read? reset.createdAt.text <;>
    simp [decode, encode, Value.record?, Document.required, Document.field?, Value.instant?,
      Value.string?, read]

namespace User

/-- A user is read back from its document exactly when its times are. -/
theorem ofDocument_encode_iff (user : User) :
    codec.ofDocument user.encode = .ok user ↔ user.TimesReadBack := by
  constructor
  · intro read
    have decoded : decode user.encode = some user := by
      simp only [Codec.ofDocument] at read
      split at read
      · rename_i value decoded
        cases read
        exact decoded
      · cases read
    simp only [decode, Option.bind_eq_bind, Option.bind_eq_some_iff] at decoded
    obtain ⟨_, _, _, _, _, _, _, _, _, verified, _, reset, same⟩ := decoded
    obtain rfl := congrArg verification (Option.some.inj same)
    obtain rfl := congrArg passwordReset (Option.some.inj same)
    constructor
    · intro verification held
      rw [Document.optional, user.field?_encode.2.2.2.2.1, held] at verified
      change (Verification.decode verification.encode).map some = _ at verified
      rw [Verification.decode_encode_eq, Option.map_map, Option.map_eq_some_iff] at verified
      obtain ⟨time, named, whole⟩ := verified
      rw [Instant.ReadsBack, named]
      exact congrArg (·.map Verification.expiresAt) whole
    · intro passwordReset held
      rw [Document.optional, user.field?_encode.2.2.2.2.2, held] at reset
      change (PasswordReset.decode passwordReset.encode).map some = _ at reset
      rw [PasswordReset.decode_encode_eq, Option.map_map, Option.map_eq_some_iff] at reset
      obtain ⟨time, named, whole⟩ := reset
      rw [Instant.ReadsBack, named]
      exact congrArg (·.map PasswordReset.createdAt) whole
  · exact ofDocument_encode

end User

/-- The first document that matches a filter, read as a user. -/
theorem UserCollection.findOne_eq [KeySource] {memory : Memory}
    (conventional : (memory.shelf "users").Conventional) (filter : Filter) :
    findOne (Collection.inMemory "users") filter memory =
      (match (memory.shelf "users").firstMatch? filter with
        | none => .error .notFound
        | some (_, document) => User.codec.ofDocument document, memory) := by
  rw [findOne, Collection.findOne_inMemory, Shelf.scanOne_byId conventional]
  cases (memory.shelf "users").firstMatch? filter with
  | none => rfl
  | some binding =>
      simp only [Option.map_some, Consumer.feed, Consumer.collector, Codec.ofDocument]
      cases User.codec.decode binding.2 <;> rfl

namespace Repository

variable {σ α : Type} {repository : Repository σ} {sub : String}

/-- A subject is settled on a user: the user is found for it, and is what settling it again gives,
whoever is offered. Nothing changes by that. -/
def SettledOn (repository : Repository σ) (sub : String) (settled : User) (guarded : Guarded σ) :
    Prop :=
  repository.serve (.find .sub sub) guarded = (.ok (.user settled), guarded) ∧
    ∀ other, repository.serve (.findBySubOrCreate other sub) guarded =
      (.ok (.user settled), guarded)

/-- A subject is open: nobody is found for it, and whoever is offered is created. -/
def LeftOpen (repository : Repository σ) (sub : String) (guarded : Guarded σ) : Prop :=
  repository.serve (.find .sub sub) guarded = (.error .notFound, guarded) ∧
    ∀ other, (repository.serve (.findBySubOrCreate other sub) guarded).1 = .ok (.user other)

/-- How a repository goes about a subject when it writes users as the entries of a table. When no
entry is bound to the subject, nobody is found, and an offered user is put into the table. Otherwise
the first such entry is read, by a lookup as well as for an offered user. -/
structure KeepsSubject (repository : Repository σ) (sub : String) (entries : σ → Table α)
    (bound : α → Bool) (write : User → α) (read : α → Except StoreError User) (state : σ) :
    Prop where
  missed : (entries state).first? bound = none →
    repository.answer (.find .sub sub) state = (.error .notFound, state) ∧
      ∀ user, ∃ next, repository.answer (.findBySubOrCreate user sub) state =
        (.ok (.user user), next) ∧ entries next = (entries state).put user.id (write user)
  found : ∀ {key : String} {entry : α}, (entries state).first? bound = some (key, entry) →
    repository.answer (.find .sub sub) state = ((read entry).map .user, state) ∧
      ∀ user, repository.answer (.findBySubOrCreate user sub) state =
        ((read entry).map .user, state)

/-- Without a fault a request is answered from the state. -/
theorem serve_of_answer {request : Request} {state next : σ} {outcome : Except StoreError Answer}
    (answered : repository.answer request state = (outcome, next)) :
    repository.serve request ⟨none, state⟩ = (outcome, ⟨none, next⟩) := by
  simp only [serve, answered]

/-- An open subject is settled on nobody. -/
theorem LeftOpen.not_settledOn {guarded : Guarded σ} (leftOpen : LeftOpen repository sub guarded)
    (settled : User) : ¬ SettledOn repository sub settled guarded := by
  rintro ⟨found, -⟩
  rw [leftOpen.1] at found
  cases found

namespace KeepsSubject

variable {entries : σ → Table α} {bound : α → Bool} {write : User → α}
  {read : α → Except StoreError User} {state : σ}

/-- A subject that an entry is bound to is settled on the user that the first one is read as. -/
theorem settledOn_iff (keeps : KeepsSubject repository sub entries bound write read state)
    {key : String} {entry : α} (first : (entries state).first? bound = some (key, entry))
    (settled : User) :
    SettledOn repository sub settled ⟨none, state⟩ ↔ read entry = .ok settled := by
  obtain ⟨looked, again⟩ := keeps.found first
  constructor
  · rintro ⟨found, -⟩
    rw [serve_of_answer looked] at found
    cases answer : read entry with
    | ok user =>
        rw [answer] at found
        cases found
        rfl
    | error error =>
        rw [answer] at found
        cases found
  · intro answer
    rw [answer] at looked again
    exact ⟨serve_of_answer looked, fun other => serve_of_answer (again other)⟩

/-- A subject that no entry is bound to is open. -/
theorem leftOpen (keeps : KeepsSubject repository sub entries bound write read state)
    (missed : (entries state).first? bound = none) :
    LeftOpen repository sub ⟨none, state⟩ := by
  obtain ⟨looked, created⟩ := keeps.missed missed
  refine ⟨serve_of_answer looked, fun other => ?_⟩
  obtain ⟨next, answered, -⟩ := created other
  rw [serve_of_answer answered]

/-- What is answered for a subject that an entry is bound to, the subject is settled on already. -/
theorem settledOn_of_found (keeps : KeepsSubject repository sub entries bound write read state)
    {key : String} {entry : α} (first : (entries state).first? bound = some (key, entry))
    {user settled : User} {after : Guarded σ}
    (answered : repository.serve (.findBySubOrCreate user sub) ⟨none, state⟩ =
      (.ok (.user settled), after)) : SettledOn repository sub settled after := by
  rw [serve_of_answer ((keeps.found first).2 user)] at answered
  cases answer : read entry with
  | error error =>
      rw [answer] at answered
      cases answered
  | ok reader =>
      rw [answer] at answered
      cases answered
      exact (keeps.settledOn_iff first settled).mpr answer

/-- Where no entry was bound to the subject, the entry of a new user decides: if it is bound to the
subject, the user has to be read back from it, and if it is not, the subject is as open as before. -/
theorem settled_of_missed {user : User} {before : Table α}
    (keeps : KeepsSubject repository sub entries bound write read state)
    (missed : before.first? bound = none)
    (grown : entries state = before.put user.id (write user)) :
    (SettledOn repository sub user ⟨none, state⟩ ↔
        bound (write user) = true ∧ read (write user) = .ok user) ∧
      (bound (write user) = false → LeftOpen repository sub ⟨none, state⟩) := by
  have first := Table.first?_put_of_none missed user.id (write user)
  rw [← grown] at first
  cases carried : bound (write user) with
  | true =>
      rw [carried, if_pos rfl] at first
      refine ⟨?_, fun without => Bool.noConfusion without⟩
      rw [keeps.settledOn_iff first, eq_self, true_and]
  | false =>
      rw [carried, if_neg Bool.false_ne_true] at first
      have leftOpen := keeps.leftOpen first
      refine ⟨iff_of_false (leftOpen.not_settledOn user) ?_, fun _ => leftOpen⟩
      rintro ⟨impossible, -⟩
      cases impossible

end KeepsSubject

/-- Whether a subject is settled once its user was found or created: it is exactly when an entry was
bound to the subject before, or the offered user has the identity and is readable. If neither an
entry nor the offered user has it, the subject is left open. -/
def SettledUnlessForeign (repository : Repository σ) (entries : σ → Table α) (bound : α → Bool)
    (readable : Prop) (user : User) (sub : String) (before : Guarded σ) : Prop :=
  ∀ settled after,
    repository.serve (.findBySubOrCreate user sub) before = (.ok (.user settled), after) →
      (SettledOn repository sub settled after ↔
        (∃ key entry, (entries before.state).find? key = some entry ∧ bound entry = true) ∨
          (user.containsAuth sub = true ∧ readable)) ∧
        ((∀ key entry, (entries before.state).find? key = some entry → bound entry = false) →
          user.containsAuth sub = false → LeftOpen repository sub after)

/-- A repository that keeps a subject before and after settles it so. -/
theorem settledUnlessForeign {entries : σ → Table α} {bound : α → Bool} {write : User → α}
    {read : α → Except StoreError User} (user : User) {before : Guarded σ}
    (keeps : KeepsSubject repository sub entries bound write read before.state)
    (keepsAfter : KeepsSubject repository sub entries bound write read
      (repository.answer (.findBySubOrCreate user sub) before.state).2)
    (carried : bound (write user) = user.containsAuth sub) :
    SettledUnlessForeign repository entries bound (read (write user) = .ok user) user sub
      before := by
  intro settled after answered
  obtain ⟨fault, state⟩ := before
  cases fault with
  | some error =>
      rw [serve_of_fault] at answered
      cases answered
  | none =>
      cases first : (entries state).first? bound with
      | some binding =>
          obtain ⟨key, entry⟩ := binding
          obtain ⟨stored, isBound⟩ := Table.find?_of_first? first
          have settledOn := keeps.settledOn_of_found first answered
          refine ⟨iff_of_true settledOn (.inl ⟨key, entry, stored, isBound⟩), ?_⟩
          intro unbound _
          rw [unbound key entry stored] at isBound
          cases isBound
      | none =>
          have unbound := (Table.first?_eq_none_iff _ _).mp first
          have nobody : ¬ ∃ key entry,
              (entries state).find? key = some entry ∧ bound entry = true := by
            rintro ⟨key, entry, stored, isBound⟩
            rw [unbound key entry stored] at isBound
            cases isBound
          obtain ⟨next, created, grown⟩ := (keeps.missed first).2 user
          rw [created] at keepsAfter
          rw [serve_of_answer created] at answered
          cases answered
          obtain ⟨settles, opens⟩ := keepsAfter.settled_of_missed first grown
          rw [carried] at settles opens
          rw [or_iff_right nobody]
          exact ⟨settles, fun _ => opens⟩

end Repository

/-- A table of users keeps every subject. -/
theorem UserTable.keepsSubject {sub : String} (nonempty : sub ≠ "") (table : Table User) :
    Repository.KeepsSubject UserTable.repository sub (fun users => users) (User.containsAuth · sub)
      (fun user => user) .ok table where
  missed missed := by
    have absent : table.first? (Lookup.holds .sub sub) = none := missed
    constructor
    · simp [repository, answer, requireText_eq_ok .sub nonempty, find, absent]
    · intro user
      refine ⟨table.put user.id user, ?_, rfl⟩
      simp [repository, answer, requireText_eq_ok .sub nonempty, Table.findOrPut, absent]
  found {key entry} found := by
    have present : table.first? (Lookup.holds .sub sub) = some (key, entry) := found
    constructor
    · simp [repository, answer, requireText_eq_ok .sub nonempty, find, present]
      rfl
    · intro user
      simp [repository, answer, requireText_eq_ok .sub nonempty, Table.findOrPut, present]
      rfl

/-- A store with documents under their identifiers keeps every subject. -/
theorem UserCollection.keepsSubject [KeySource] {sub : String} (nonempty : sub ≠ "")
    {memory : Memory} (conventional : (memory.shelf "users").Conventional) :
    Repository.KeepsSubject (UserCollection.ofBackend Memory.backend) sub (Memory.shelf · "users")
      (Document.matches · (Lookup.filter .sub sub)) User.encode User.codec.ofDocument memory where
  missed missed := by
    have absent : (memory.shelf "users").firstMatch? (Lookup.filter .sub sub) = none := missed
    have looked := findOne_eq conventional (Lookup.filter .sub sub)
    rw [absent] at looked
    constructor
    · change answer (Collection.inMemory "users") (.find .sub sub) memory = _
      simp only [answer, requireText_eq_ok .sub nonempty, looked]
    · intro user
      refine ⟨memory.withShelf "users" ((memory.shelf "users").put user.id user.encode), ?_, ?_⟩
      · change answer (Collection.inMemory "users") (.findBySubOrCreate user sub) memory = _
        simp only [answer, requireText_eq_ok .sub nonempty, findBySubOrCreate, looked,
          save_eq conventional]
      · rw [Memory.shelf_withShelf, if_pos rfl]
  found {key document} found := by
    have present : (memory.shelf "users").firstMatch? (Lookup.filter .sub sub) =
        some (key, document) := found
    have looked := findOne_eq conventional (Lookup.filter .sub sub)
    rw [present] at looked
    constructor
    · change answer (Collection.inMemory "users") (.find .sub sub) memory = _
      simp only [answer, requireText_eq_ok .sub nonempty, looked, Codec.ofDocument]
      cases User.codec.decode document <;> rfl
    · intro user
      change answer (Collection.inMemory "users") (.findBySubOrCreate user sub) memory = _
      simp only [answer, requireText_eq_ok .sub nonempty, findBySubOrCreate, looked,
        Codec.ofDocument]
      cases User.codec.decode document <;> rfl

/-- Any calls leave documents of users under their identifiers. -/
theorem UserCollection.conventional_run [KeySource] (calls : List RepositoryCall)
    {store : Guarded Memory} (conventional : (store.state.shelf "users").Conventional) :
    Shelf.Conventional
      (((UserCollection.ofBackend Memory.backend).run calls store).2.state.shelf "users") := by
  have kept (request : Request) (memory : Memory)
      (each : (memory.shelf "users").Conventional) : Shelf.Conventional
        (((UserCollection.ofBackend Memory.backend).answer request memory).2.shelf "users") :=
    conventional_answer each request
  exact Repository.run_keeps kept calls conventional

namespace Repository

/-- After any calls, finding the user of a subject or creating one settles the subject exactly when
a user was bound to it, or the created user has the identity: that user is found from then on, and
nobody else is created for the subject. A user who is created without the identity is found for
nothing, and the next offered user is created as well. In a store in which documents stand under
their identifiers at first it is the same, as long as the times of the created user are read
back. -/
theorem subject_settled_iff [KeySource] (calls : List RepositoryCall) (table : Guarded (Table User))
    {store : Guarded Memory} (conventional : (store.state.shelf "users").Conventional) (user : User)
    {sub : String} (nonempty : sub ≠ "") :
    SettledUnlessForeign UserTable.repository (fun users => users) (User.containsAuth · sub) True
        user sub (UserTable.repository.run calls table).2 ∧
      SettledUnlessForeign (UserCollection.ofBackend Memory.backend) (Memory.shelf · "users")
        (Document.matches · (Lookup.filter .sub sub)) user.TimesReadBack user sub
        ((UserCollection.ofBackend Memory.backend).run calls store).2 := by
  constructor
  · have settled := settledUnlessForeign user
      (UserTable.keepsSubject nonempty (UserTable.repository.run calls table).2.state)
      (UserTable.keepsSubject nonempty _) rfl
    rwa [eq_self] at settled
  · have reached := UserCollection.conventional_run calls conventional
    have settled := settledUnlessForeign user (UserCollection.keepsSubject nonempty reached)
      (UserCollection.keepsSubject nonempty (UserCollection.conventional_answer reached _))
      (Lookup.matches_filter .sub sub user)
    rwa [User.ofDocument_encode_iff] at settled

/-- A user who comes with the identity is the one who is found, though another user is stored. -/
theorem subject_settled_on_new_user :
    let ann : User := { id := "a", name := "ann", email := "ann@x" }
    let bob : User := { id := "b", name := "bob", email := "bob@x", auths := [⟨"x", "x|1"⟩] }
    let table := (UserTable.repository.run [.request (.save ann)] ⟨none, Table.empty⟩).2
    let store := ((UserCollection.ofBackend Memory.backend).run [.request (.save ann)]
      ⟨none, Memory.empty⟩).2
    SettledOn UserTable.repository "x|1" bob
        (UserTable.repository.serve (.findBySubOrCreate bob "x|1") table).2 ∧
      SettledOn (UserCollection.ofBackend Memory.backend) "x|1" bob
        ((UserCollection.ofBackend Memory.backend).serve (.findBySubOrCreate bob "x|1")
          store).2 := by
  intro ann bob table store
  have empty : ((⟨none, Memory.empty⟩ : Guarded Memory).state.shelf "users").Conventional :=
    Table.each_empty
  obtain ⟨inTable, inStore⟩ := subject_settled_iff [.request (.save ann)] ⟨none, Table.empty⟩ empty
    bob (show "x|1" ≠ "" by decide)
  have carries : bob.containsAuth "x|1" = true := by decide
  have timely : bob.TimesReadBack := ⟨nofun, nofun⟩
  have tableAnswer : (UserTable.repository.serve (.findBySubOrCreate bob "x|1") table).1 =
      .ok (.user bob) := by rfl
  have storeAnswer : ((UserCollection.ofBackend Memory.backend).serve
      (.findBySubOrCreate bob "x|1") store).1 = .ok (.user bob) := by decide +kernel
  exact ⟨(inTable bob _ (Prod.ext tableAnswer rfl)).1.mpr (.inr ⟨carries, trivial⟩),
    (inStore bob _ (Prod.ext storeAnswer rfl)).1.mpr (.inr ⟨carries, timely⟩)⟩

/-- A user who is created without the identity is not found for it, and a second user is created. -/
theorem subject_not_settled_by_foreign_user :
    let ann : User := { id := "a", name := "ann", email := "ann@x" }
    let bob : User := { id := "b", name := "bob", email := "bob@x" }
    let table := UserTable.repository.serve (.findBySubOrCreate ann "x|1") ⟨none, Table.empty⟩
    let store := (UserCollection.ofBackend Memory.backend).serve (.findBySubOrCreate ann "x|1")
      ⟨none, Memory.empty⟩
    (table.1 = .ok (.user ann) ∧
        (UserTable.repository.serve (.find .sub "x|1") table.2).1 = .error .notFound ∧
        (UserTable.repository.serve (.findBySubOrCreate bob "x|1") table.2).1 = .ok (.user bob)) ∧
      store.1 = .ok (.user ann) ∧
        ((UserCollection.ofBackend Memory.backend).serve (.find .sub "x|1") store.2).1 =
          .error .notFound ∧
        ((UserCollection.ofBackend Memory.backend).serve (.findBySubOrCreate bob "x|1")
          store.2).1 = .ok (.user bob) := by
  intro ann bob table store
  refine ⟨⟨?_, ?_, ?_⟩, ?_, ?_, ?_⟩ <;> decide +kernel

end Repository

end DocStore
