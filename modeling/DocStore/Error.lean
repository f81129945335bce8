import DocStore.Value

/-!
# Errors

Everything that can go wrong in a store, by cause. The six classes are closed: a missing match, an
invalid request, a clash of identifiers, a conflict worth retrying, an internal failure, and the
signal by which a reader of a stream stops it early. The wording of each error is a function of
its cause, so two errors of one cause always read the same.
-/

namespace DocStore

/-- Why a request is refused before or while it is carried out. `stated` is a reason given by a
party outside the store. -/
inductive Refusal where
  | immutableId
  | blockedField (path : List String) (kind : Kind)
  | unknownIdentifier (identifier : String)
  | unaddressable (segment : String)
  | unequalLengths (ids documents : Nat)
  | negative (name : String)
  | mixedDirections
  | emptyArgument (name : String)
  | textRequired (operator : String) (kind : Kind)
  | limitTooLarge (limit : Nat)
  | stated (message : String)
deriving DecidableEq, Repr

/-- The wording of a refusal. -/
def Refusal.message : Refusal → String
  | .immutableId => "the `id` field is immutable"
  | .blockedField path kind =>
      "cannot create field `" ++ String.intercalate "." path ++ "` in element of type " ++ kind.name
  | .unknownIdentifier identifier =>
      "no array filter found for identifier `" ++ identifier ++ "`"
  | .unaddressable segment => "cannot address array with `" ++ segment ++ "`"
  | .unequalLengths ids documents =>
      "invalid save args: " ++ toString ids ++ " ids for " ++ toString documents ++ " documents"
  | .negative name => name ++ " must not be negative"
  | .mixedDirections => "cursor pagination cannot combine first/after with last/before"
  | .emptyArgument name => name ++ " must not be empty"
  | .textRequired operator kind => operator ++ " requires a string value, got " ++ kind.name
  | .limitTooLarge limit => "limit " ++ toString limit ++ " is out of range"
  | .stated message => message

/-- What an identifier clashes with. -/
inductive Clash where
  | document (key : String)
  | user (id : String)
  | stated (message : String)
deriving DecidableEq, Repr

/-- The wording of a clash. -/
def Clash.message : Clash → String
  | .document key => "document " ++ key ++ " already exists"
  | .user id => "user " ++ id ++ " already exists"
  | .stated message => message

/-- Why something failed inside. `undecodable` stands for every document that does not have the
shape its reader expects. -/
inductive Cause where
  | undecodable
  | cursorMissing
  | cursorKind (kind : Kind)
  | unidentified (id : String)
  | stated (message : String)
deriving DecidableEq, Repr

/-- The wording of an internal cause. -/
def Cause.message : Cause → String
  | .undecodable => "undecodable document"
  | .cursorMissing => "failed to lookup cursor: no `id` field"
  | .cursorKind kind => "failed to unmarshal cursor: `id` is " ++ kind.name ++ ", not a string"
  | .unidentified id => "document " ++ id ++ " does not serialize its identifier under `id`"
  | .stated message => message

/-- The errors of a store. `endOfStream` is no failure: a reader of a stream returns it to stop
early. -/
inductive StoreError where
  | notFound
  | invalidParams (refusal : Refusal)
  | duplicate (clash : Clash)
  | transactionConflict
  | internal (cause : Cause)
  | endOfStream
deriving DecidableEq, Repr

namespace StoreError

/-- The wording of an error: its class, and after a colon the cause where there is one. -/
def message : StoreError → String
  | .notFound => "Not found"
  | .invalidParams refusal => "Invalid params: " ++ refusal.message
  | .duplicate clash => "Duplicate: " ++ clash.message
  | .transactionConflict => "Transaction conflict"
  | .internal cause => "Internal error: " ++ cause.message
  | .endOfStream => "End of stream"

/-- The cause behind an internal failure. -/
def cause? : StoreError → Option Cause
  | .internal cause => some cause
  | _ => none

/-- True exactly when nothing matched where a match was required. -/
def isNotFound : StoreError → Bool
  | .notFound => true
  | _ => false

/-- True exactly for a conflict, which a retry may resolve. -/
def isTransactionConflict : StoreError → Bool
  | .transactionConflict => true
  | _ => false

end StoreError

/-- What a driver tells about a failure of its own: its text and the signs it recognises. -/
structure DriverFailure where
  text : String
  notFound : Bool := false
  duplicate : Bool := false
  conflict : Bool := false
deriving DecidableEq, Repr

/-- The class of a driver's failure. A missing match outranks a clash, a clash outranks a
conflict, and a failure without a sign is internal. -/
def DriverFailure.classify (failure : DriverFailure) : StoreError :=
  if failure.notFound then .notFound
  else if failure.duplicate then .duplicate (.stated failure.text)
  else if failure.conflict then .transactionConflict
  else .internal (.stated failure.text)

end DocStore
