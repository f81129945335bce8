import DocStore.Account.Repository
import DocStore.Collection

/-!
# Users in a collection

A repository that keeps its users as documents in a collection of any backend. Lookups become
filters, and of several matches the one with the lowest identifier is read.
-/

namespace DocStore.UserCollection

variable {σ : Type}

/-- The first user, by identifier, whose document a filter accepts. -/
def findOne (users : Collection σ) (filter : Filter) : Action σ User := fun state =>
  match users.findOne filter ScanOptions.byId (Consumer.collector User.codec) (state, []) with
  | (.error error, (next, _)) => (.error error, next)
  | (.ok (), (next, found)) => (firstOf found, next)

/-- Saves the document of a user under the user's identifier. -/
def save (users : Collection σ) (user : User) : Action σ Unit := fun state =>
  match User.codec.toDocument user with
  | .error error => (.error error, state)
  | .ok document => users.saveOne user.id document state

/-- Reports success of an action that has nothing to tell. -/
def done (action : Action σ Unit) : Action σ Answer := fun state =>
  match action state with
  | (.ok (), next) => (.ok .done, next)
  | (.error error, next) => (.error error, next)

/-- The users of the identifiers, in the order of the request. -/
def findByIds (users : Collection σ) (ids : List String) : Action σ Answer := fun state =>
  if ids.isEmpty then (.ok (.users []), state)
  else
    let filter := Filter.comparison idField .anyOf (.array (ids.map Value.string))
    match users.find filter {} (Consumer.collector User.codec) (state, []) with
    | (.error error, (next, _)) => (.error error, next)
    | (.ok (), (next, found)) => (.ok (.users (inRequestOrder ids found)), next)

/-- The user bound to a subject; when there is none, the given user, who is saved. -/
def findBySubOrCreate (users : Collection σ) (user : User) (sub : String) : Action σ Answer :=
  fun state =>
    match findOne users (Lookup.filter .sub sub) state with
    | (.ok found, next) => (.ok (.user found), next)
    | (.error .notFound, next) =>
        match save users user next with
        | (.ok (), saved) => (.ok (.user user), saved)
        | (.error error, saved) => (.error error, saved)
    | (.error error, next) => (.error error, next)

/-- Saves a user whose identifier no document has. -/
def create (users : Collection σ) (user : User) : Action σ Answer := fun state =>
  match users.count (Filter.id user.id) state with
  | (.error error, next) => (.error error, next)
  | (.ok 0, next) => done (save users user) next
  | (.ok _, next) => (.error (takenUser user.id), next)

/-- Removes a user, who need not be there. -/
def remove (users : Collection σ) (id : String) : Action σ Answer := fun state =>
  match users.removeOne (Filter.id id) state with
  | (.ok (), next) => (.ok .done, next)
  | (.error .notFound, next) => (.ok .done, next)
  | (.error error, next) => (.error error, next)

/-- Answers a request from a collection. -/
def answer (users : Collection σ) : Request → Action σ Answer
  | .findByIds ids, state => findByIds users ids state
  | .find lookup wanted, state =>
      match requireText lookup wanted with
      | .error error => (.error error, state)
      | .ok () =>
          match findOne users (lookup.filter wanted) state with
          | (.ok user, next) => (.ok (.user user), next)
          | (.error error, next) => (.error error, next)
  | .findBySubOrCreate user sub, state =>
      match requireText .sub sub with
      | .error error => (.error error, state)
      | .ok () => findBySubOrCreate users user sub state
  | .create user, state => create users user state
  | .save user, state => done (save users user) state
  | .remove id, state => remove users id state

/-- The repository over a collection. -/
def repository (users : Collection σ) : Repository σ := ⟨answer users⟩

/-- The repository over the collection of users of a backend. -/
def ofBackend (backend : Backend σ) : Repository σ :=
  repository (backend.collectionFor User.codec)

end DocStore.UserCollection
