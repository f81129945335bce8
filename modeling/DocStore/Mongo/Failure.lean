import DocStore.Error

/-!
# Failures of a MongoDB server

What a failed operation on a MongoDB server reports, and how it is classed. The server's codes
tell a clash of identifiers and a conflict between writes; labels on the failure tell a conflict
too. The server never reports a missing match as a failure.
-/

namespace DocStore.Mongo

/-- The sorts of failure, with the codes they carry. -/
inductive FailureKind where
  | command (code : Int32)
  | write (code : Int32)
  | writeConcern (code : Int32)
  | bulk (writes concerns : List Int32)
  | connection
  | custom
deriving DecidableEq, Repr

/-- A failed operation: its sort, its labels and its text. -/
structure Failure where
  kind : FailureKind
  labels : List String := []
  text : String := ""
deriving DecidableEq, Repr

/-- The code of a conflict between concurrent writes. -/
def writeConflictCode : Int32 := 112

/-- The code of a second document with an identifier that is taken. -/
def duplicateKeyCode : Int32 := 11000

/-- The labels of a failure that a retry may resolve. -/
def conflictLabels : List String :=
  ["TransientTransactionError", "UnknownTransactionCommitResult"]

namespace Failure

/-- The codes that a failure carries. -/
def codes (failure : Failure) : List Int32 :=
  match failure.kind with
  | .command code | .write code | .writeConcern code => [code]
  | .bulk writes concerns => writes ++ concerns
  | .connection | .custom => []

/-- True exactly when the failure reports a clash of identifiers. -/
def isDuplicate (failure : Failure) : Bool :=
  failure.codes.contains duplicateKeyCode

/-- True exactly when the failure reports a conflict. -/
def isConflict (failure : Failure) : Bool :=
  failure.labels.any conflictLabels.contains || failure.codes.contains writeConflictCode

/-- What is told about the failure to class it. -/
def toDriverFailure (failure : Failure) : DriverFailure where
  text := failure.text
  duplicate := failure.isDuplicate
  conflict := failure.isConflict

/-- The class of a failure. -/
def classify (failure : Failure) : StoreError := failure.toDriverFailure.classify

end Failure

end DocStore.Mongo
