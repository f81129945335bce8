import DocStore.Account.User

/-!
# Users as documents

The document form of a user. Fields that hold nothing are left out, except for the list of
identities, which is always written. On reading, unknown fields are ignored, the list of
identities may be missing, and the optional parts may be missing or null; everything else has to
be there and be of its kind. A time, unlike the other texts, is read from a string only.
-/

namespace DocStore

namespace Auth

/-- The document of an identity. -/
def encode (auth : Auth) : Value :=
  .document [("provider", .string auth.provider), ("sub", .string auth.sub)]

/-- The identity that a value holds. -/
def decode (value : Value) : Option Auth := do
  let fields ← value.record? ["provider", "sub"]
  let provider ← Document.required fields "provider" Value.text?
  let sub ← Document.required fields "sub" Value.text?
  some ⟨provider, sub⟩

/-- The identities that a list of values holds, all of which must hold one. -/
def decodeAll : List Value → Option (List Auth)
  | [] => some []
  | value :: rest => do
      let auth ← decode value
      let auths ← decodeAll rest
      some (auth :: auths)

end Auth

/-- The instant that a string value names. -/
def Value.instant? (value : Value) : Option Instant :=
  value.string?.bind Instant.read?

namespace Verification

/-- The document of a verification. -/
def encode (verification : Verification) : Value :=
  .document [("code", .string verification.code),
    ("expires_at", .string verification.expiresAt.text),
    ("verified", .boolean verification.verified)]

/-- The verification that a value holds. -/
def decode (value : Value) : Option Verification := do
  let fields ← value.record? ["code", "expires_at", "verified"]
  let code ← Document.required fields "code" Value.text?
  let expiresAt ← Document.required fields "expires_at" Value.instant?
  let verified ← Document.required fields "verified" Value.flag?
  some ⟨code, expiresAt, verified⟩

end Verification

namespace PasswordReset

/-- The document of a password reset. -/
def encode (reset : PasswordReset) : Value :=
  .document [("token", .string reset.token), ("created_at", .string reset.createdAt.text)]

/-- The password reset that a value holds. -/
def decode (value : Value) : Option PasswordReset := do
  let fields ← value.record? ["token", "created_at"]
  let token ← Document.required fields "token" Value.text?
  let createdAt ← Document.required fields "created_at" Value.instant?
  some ⟨token, createdAt⟩

end PasswordReset

namespace User

/-- The document of a user. -/
def encode (user : User) : Document :=
  [(idField, .string user.id), ("name", .string user.name), ("email", .string user.email),
    ("auths", .array (user.auths.map Auth.encode))] ++
  (user.verification.map fun verification => ("verification", verification.encode)).toList ++
  (user.passwordReset.map fun reset => ("password_reset", reset.encode)).toList

/-- The identities that a user's document lists; a missing list is empty. -/
def decodeAuths (document : Document) : Option (List Auth) :=
  match Document.field? document "auths" with
  | none => some []
  | some value => value.items?.bind Auth.decodeAll

/-- The user that a document holds. -/
def decode (document : Document) : Option User := do
  let id ← Document.required document idField Value.text?
  let name ← Document.required document "name" Value.text?
  let email ← Document.required document "email" Value.text?
  let auths ← decodeAuths document
  let verification ← Document.optional document "verification" Verification.decode
  let passwordReset ← Document.optional document "password_reset" PasswordReset.decode
  some ⟨id, name, email, auths, verification, passwordReset⟩

/-- Users are kept in the collection of users under their identifiers. -/
def codec : Codec User where
  collection := "users"
  identify := User.id
  encode := encode
  decode := decode

/-- A user is always written, under its identifier. -/
theorem toDocument_eq (user : User) : codec.toDocument user = .ok user.encode := by
  rw [Codec.toDocument_eq_ok_iff]
  exact ⟨rfl, by simp [codec, encode, Document.field?]⟩

end User

end DocStore
