import DocStore.Instant.Text
import DocStore.Typed

/-!
# Users

A user has a name, an e-mail address, the external identities it signs in with, and at most one
pending verification and one pending password reset. An identity is bound to a user at most once,
by its subject.
-/

namespace DocStore

/-- An external identity: the provider and the subject that the provider knows it by. -/
structure Auth where
  provider : String
  sub : String
deriving DecidableEq, Repr

/-- What stands before the first bar of a text; nothing when there is no bar. -/
def beforeBar (letters : List Char) : List Char :=
  if '|' ∈ letters then letters.takeWhile (· != '|') else []

/-- The identity of a full subject, whose provider is the part before the first bar. -/
def Auth.ofSub (sub : String) : Auth :=
  ⟨String.ofList (beforeBar sub.toList), sub⟩

/-- The verification of an e-mail address by a code. -/
structure Verification where
  code : String
  expiresAt : Instant
  verified : Bool
deriving DecidableEq, Repr

/-- A verification expires at its instant, not after it. -/
def Verification.isExpired (verification : Verification) (now : Instant) : Bool :=
  now.notBefore verification.expiresAt

/-- A request to reset a password, known by its token. -/
structure PasswordReset where
  token : String
  createdAt : Instant
deriving DecidableEq, Repr

/-- A user account. -/
structure User where
  id : String
  name : String
  email : String
  auths : List Auth := []
  verification : Option Verification := none
  passwordReset : Option PasswordReset := none
deriving DecidableEq, Repr

namespace User

/-- True exactly when an identity with the subject is bound to the user. -/
def containsAuth (user : User) (sub : String) : Bool :=
  user.auths.any fun auth => auth.sub == sub

/-- Binds an identity, unless one with its subject is bound already. -/
def withAuth (user : User) (auth : Auth) : User :=
  if user.containsAuth auth.sub then user else { user with auths := user.auths ++ [auth] }

/-- Binds an identity, and tells whether it was new. -/
def addAuth (user : User) (auth : Auth) : Bool × User :=
  (!user.containsAuth auth.sub, user.withAuth auth)

/-- True exactly when the user is verified, or to be verified, by the code. -/
def hasVerificationCode (user : User) (code : String) : Bool :=
  user.verification.any fun verification => verification.code == code

/-- True exactly when the user has asked for a reset known by the token. -/
def hasPasswordResetToken (user : User) (token : String) : Bool :=
  user.passwordReset.any fun reset => reset.token == token

/-- After binding an identity its subject is bound. -/
theorem containsAuth_withAuth (user : User) (auth : Auth) :
    (user.withAuth auth).containsAuth auth.sub = true := by
  unfold withAuth
  split
  · assumption
  · simp [containsAuth]

end User

end DocStore
