import DocStore.Account.Repository
import DocStore.Table

/-!
# Users in a table

A repository that keeps its users in a table under their identifiers. Lookups scan the table in
the order of the identifiers.
-/

namespace DocStore.UserTable

/-- The table of the given users; of two with one identifier the later one stays. -/
def ofUsers (users : List User) : Table User :=
  Table.ofList (users.map fun user => (user.id, user))

/-- The user that a lookup finds. An identifier is looked up directly. -/
def find (lookup : Lookup) (wanted : String) (table : Table User) : Except StoreError Answer :=
  let found :=
    match lookup with
    | .id => table.find? wanted
    | other => (table.first? (other.holds wanted)).map (·.2)
  match found with
  | some user => .ok (.user user)
  | none => .error .notFound

/-- Answers a request from a table. -/
def answer : Request → Action (Table User) Answer
  | .findByIds ids, table =>
      (.ok (.users (inRequestOrder ids (table.filter fun user => ids.contains user.id).values)),
        table)
  | .find lookup wanted, table =>
      match requireText lookup wanted with
      | .error error => (.error error, table)
      | .ok () => (find lookup wanted table, table)
  | .findBySubOrCreate user sub, table =>
      match requireText .sub sub with
      | .error error => (.error error, table)
      | .ok () =>
          match table.findOrPut (Lookup.holds .sub sub) user.id user with
          | ((settled, _), next) => (.ok (.user settled), next)
  | .create user, table =>
      match table.insertNew? user.id user with
      | some grown => (.ok .done, grown)
      | none => (.error (takenUser user.id), table)
  | .save user, table => (.ok .done, table.put user.id user)
  | .remove id, table => (.ok .done, table.erase id)

/-- The repository over a table. -/
def repository : Repository (Table User) := ⟨answer⟩

end DocStore.UserTable
