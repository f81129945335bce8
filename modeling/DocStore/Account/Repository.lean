import DocStore.Account.UserDocument
import DocStore.Backend

/-!
# The repository of users

What can be asked of a repository, whatever keeps its users. A lookup finds a single user by one
property: it fails when nobody has it and takes the lowest identifier when several do, and the
property must not be empty. Users are created under a vacant identifier, saved over whoever has
the identifier, and removed whether they are there or not. A fault, once set, answers every
request until it is cleared, and nothing is carried out meanwhile.
-/

namespace DocStore

/-- The properties by which a single user is found. -/
inductive Lookup where
  | id
  | sub
  | email
  | name
  | nameOrEmail
  | verification
  | passwordReset
deriving DecidableEq, Repr

namespace Lookup

/-- The name of the property when it is missing from a request. -/
def label : Lookup → String
  | .id => "id"
  | .sub => "sub"
  | .email => "email"
  | .name => "name"
  | .nameOrEmail => "name or email"
  | .verification => "verification code"
  | .passwordReset => "password reset token"

/-- True exactly when a user has the property. -/
def holds (lookup : Lookup) (wanted : String) (user : User) : Bool :=
  match lookup with
  | .id => user.id == wanted
  | .sub => user.containsAuth wanted
  | .email => user.email == wanted
  | .name => user.name == wanted
  | .nameOrEmail => user.name == wanted || user.email == wanted
  | .verification => user.hasVerificationCode wanted
  | .passwordReset => user.hasPasswordResetToken wanted

/-- The filter that accepts the documents of the users who have the property. -/
def filter (lookup : Lookup) (wanted : String) : Filter :=
  match lookup with
  | .id => Filter.id wanted
  | .sub => Filter.eq "auths.sub" (.string wanted)
  | .email => Filter.eq "email" (.string wanted)
  | .name => Filter.eq "name" (.string wanted)
  | .nameOrEmail =>
      (Filter.eq "name" (.string wanted)).or (Filter.eq "email" (.string wanted))
  | .verification => Filter.eq "verification.code" (.string wanted)
  | .passwordReset => Filter.eq "password_reset.token" (.string wanted)

end Lookup

/-- The requests that a repository answers. -/
inductive Request where
  | findByIds (ids : List String)
  | find (lookup : Lookup) (wanted : String)
  | findBySubOrCreate (user : User) (sub : String)
  | create (user : User)
  | save (user : User)
  | remove (id : String)
deriving Repr

/-- The answers of a repository. -/
inductive Answer where
  | done
  | user (user : User)
  | users (users : List User)
deriving DecidableEq, Repr

/-- Refuses an empty property. -/
def requireText (lookup : Lookup) (wanted : String) : Except StoreError Unit :=
  if wanted.isEmpty then .error (.invalidParams (.emptyArgument lookup.label)) else .ok ()

/-- The identifiers of a list, each at its first place only. -/
def firstOccurrences : List String → List String
  | [] => []
  | id :: rest => id :: (firstOccurrences rest).filter (· != id)

/-- The last user of an identifier in a list of users. -/
def lastOf (id : String) (users : List User) : Option User :=
  (users.reverse).find? fun user => user.id == id

/-- Users in the order in which their identifiers are first asked for. -/
def inRequestOrder (ids : List String) (users : List User) : List User :=
  (firstOccurrences ids).filterMap fun id => lastOf id users

/-- The creation of a user whose identifier is taken. -/
def takenUser (id : String) : StoreError := .duplicate (.user id)

/-- A repository over states `σ`: how it answers a request when no fault is set. -/
structure Repository (σ : Type) where
  answer : Request → Action σ Answer

/-- The state of a repository together with the fault that is set on it. -/
structure Guarded (σ : Type) where
  fault : Option StoreError
  state : σ

/-- Sets a fault, or clears it. -/
def Guarded.withFault {σ : Type} (guarded : Guarded σ) (fault : Option StoreError) : Guarded σ :=
  ⟨fault, guarded.state⟩

namespace Repository

variable {σ : Type}

/-- Answers a request, or with the fault if one is set. -/
def serve (repository : Repository σ) (request : Request) : Action (Guarded σ) Answer :=
  fun guarded =>
    match guarded.fault with
    | some error => (.error error, guarded)
    | none =>
        match repository.answer request guarded.state with
        | (answer, next) => (answer, ⟨none, next⟩)

/-- A fault answers every request and keeps everything as it is. -/
theorem serve_of_fault (repository : Repository σ) (request : Request) (error : StoreError)
    (state : σ) : repository.serve request ⟨some error, state⟩ =
      (.error error, ⟨some error, state⟩) := rfl

end Repository

end DocStore
