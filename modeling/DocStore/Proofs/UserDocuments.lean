import DocStore.Account.Repository
import DocStore.Proofs.IdScans

/-!
# Users and their documents

The document of a user says what the user does. Reading it gives the user back, provided that its
times are read back from their texts, and a lookup accepts the document exactly when the user has
the property. The identity of a user is the identifier of the document.
-/

namespace DocStore

/-- An instant is the one that its text names. -/
def Instant.ReadsBack (instant : Instant) : Prop := Instant.read? instant.text = some instant

/-- The times of a user are read back from their texts. -/
def User.TimesReadBack (user : User) : Prop :=
  (∀ verification, user.verification = some verification → verification.expiresAt.ReadsBack) ∧
    ∀ reset, user.passwordReset = some reset → reset.createdAt.ReadsBack

/-- An identity is read back from its document. -/
theorem Auth.decode_encode (auth : Auth) : Auth.decode auth.encode = some auth := by
  simp [Auth.decode, Auth.encode, Value.record?, Document.required, Document.field?]

/-- A list of identities is read back from their documents. -/
theorem Auth.decodeAll_encode (auths : List Auth) :
    Auth.decodeAll (auths.map Auth.encode) = some auths := by
  induction auths with
  | nil => rfl
  | cons auth auths ih => simp [Auth.decodeAll, Auth.decode_encode, ih]

/-- A verification is read back from its document if its time is. -/
theorem Verification.decode_encode {verification : Verification}
    (readable : verification.expiresAt.ReadsBack) :
    Verification.decode verification.encode = some verification := by
  unfold Instant.ReadsBack at readable
  simp [Verification.decode, Verification.encode, Value.record?, Document.required,
    Document.field?, Value.instant?, Value.string?, Value.flag?, readable]

/-- A password reset is read back from its document if its time is. -/
theorem PasswordReset.decode_encode {reset : PasswordReset}
    (readable : reset.createdAt.ReadsBack) :
    PasswordReset.decode reset.encode = some reset := by
  unfold Instant.ReadsBack at readable
  simp [PasswordReset.decode, PasswordReset.encode, Value.record?, Document.required,
    Document.field?, Value.instant?, Value.string?, readable]

namespace User

/-- The fields of a user's document. -/
theorem field?_encode (user : User) :
    Document.field? user.encode idField = some (.string user.id) ∧
      Document.field? user.encode "name" = some (.string user.name) ∧
      Document.field? user.encode "email" = some (.string user.email) ∧
      Document.field? user.encode "auths" = some (.array (user.auths.map Auth.encode)) ∧
      Document.field? user.encode "verification" =
        user.verification.map Verification.encode ∧
      Document.field? user.encode "password_reset" =
        user.passwordReset.map PasswordReset.encode := by
  cases verification : user.verification <;> cases reset : user.passwordReset <;>
    simp [encode, Document.field?, idField, verification, reset]

/-- The document of a user carries the user's identifier. -/
theorem identifiedBy_encode (user : User) : user.encode.IdentifiedBy user.id :=
  user.field?_encode.1

/-- The optional verification is read back from the document of its user. -/
theorem optional_verification {user : User}
    (readable : ∀ verification, user.verification = some verification →
      verification.expiresAt.ReadsBack) :
    Document.optional user.encode "verification" Verification.decode = some user.verification := by
  rw [Document.optional, user.field?_encode.2.2.2.2.1]
  cases held : user.verification with
  | none => rfl
  | some verification =>
      change (Verification.decode verification.encode).map some = _
      rw [Verification.decode_encode (readable verification held)]
      rfl

/-- The optional password reset is read back from the document of its user. -/
theorem optional_passwordReset {user : User}
    (readable : ∀ reset, user.passwordReset = some reset → reset.createdAt.ReadsBack) :
    Document.optional user.encode "password_reset" PasswordReset.decode =
      some user.passwordReset := by
  rw [Document.optional, user.field?_encode.2.2.2.2.2]
  cases held : user.passwordReset with
  | none => rfl
  | some reset =>
      change (PasswordReset.decode reset.encode).map some = _
      rw [PasswordReset.decode_encode (readable reset held)]
      rfl

/-- A user is read back from its document if its times are. -/
theorem decode_encode {user : User} (readable : user.TimesReadBack) :
    decode user.encode = some user := by
  obtain ⟨id, name, email, auths, _, _⟩ := user.field?_encode
  have readAuths : decodeAuths user.encode = some user.auths := by
    simp [decodeAuths, auths, Value.items?, Auth.decodeAll_encode]
  simp [decode, Document.required, id, name, email, readAuths, optional_verification readable.1,
    optional_passwordReset readable.2]

end User

/-- An equality with a text accepts a document whose field reaches strings exactly when the text is
among them. -/
theorem Document.matches_eq_text {document : Document} {field : String} {texts : List String}
    (reached : Document.reach document (route field) = texts.map Value.string) (wanted : String) :
    document.matches (Filter.eq field (.string wanted)) = texts.any (· == wanted) := by
  simp only [Document.matches, Filter.eq, Filter.accepts, Operator.accepts, reached, List.any_map]
  congr 1
  funext text
  simp [Value.meets]

/-- A field name of two segments reaches what the second reaches in the field of the first. -/
theorem Document.reach_inner {document : Document} {name outer inner : String}
    (double : route name = [outer, inner]) :
    Document.reach document (route name) =
      match Document.field? document outer with
      | some value => value.reach [inner]
      | none => [] := by
  rw [double]
  exact reachField_eq document outer [inner]

namespace User

/-- The subjects of the identities are reached in the document of their user. -/
theorem reach_sub (user : User) :
    Document.reach user.encode (route "auths.sub") =
      (user.auths.map Auth.sub).map Value.string := by
  have double : route "auths.sub" = ["auths", "sub"] := by decide +kernel
  have unindexed : index? "sub" = none := by decide +kernel
  rw [Document.reach_inner double, user.field?_encode.2.2.2.1]
  simp only [Value.reach, unindexed, List.nil_append, reachDocuments_eq]
  induction user.auths with
  | nil => rfl
  | cons auth auths ih =>
      have own : auth.encode.reach ["sub"] = [.string auth.sub] := by
        simp [Auth.encode, Value.reach, reachField]
      have shown : auth.encode.isDocument = true := rfl
      simp only [List.map_cons, List.filter_cons, shown, if_true, List.flatMap_cons, own, ih,
        List.singleton_append]

/-- The code of a pending verification is reached in the document of its user. -/
theorem reach_code (user : User) :
    Document.reach user.encode (route "verification.code") =
      (user.verification.toList.map Verification.code).map Value.string := by
  have double : route "verification.code" = ["verification", "code"] := by decide +kernel
  rw [Document.reach_inner double, user.field?_encode.2.2.2.2.1]
  cases user.verification with
  | none => rfl
  | some verification => simp [Verification.encode, Value.reach, reachField]

/-- The token of a pending password reset is reached in the document of its user. -/
theorem reach_token (user : User) :
    Document.reach user.encode (route "password_reset.token") =
      (user.passwordReset.toList.map PasswordReset.token).map Value.string := by
  have double : route "password_reset.token" = ["password_reset", "token"] := by decide +kernel
  rw [Document.reach_inner double, user.field?_encode.2.2.2.2.2]
  cases user.passwordReset with
  | none => rfl
  | some reset => simp [PasswordReset.encode, Value.reach, reachField]

/-- The name is reached in the document of its user. -/
theorem reach_name (user : User) :
    Document.reach user.encode (route "name") = [user.name].map Value.string :=
  Document.reach_field (by decide +kernel) user.field?_encode.2.1

/-- The e-mail address is reached in the document of its user. -/
theorem reach_email (user : User) :
    Document.reach user.encode (route "email") = [user.email].map Value.string :=
  Document.reach_field (by decide +kernel) user.field?_encode.2.2.1

end User

/-- The filter of a lookup accepts the document of a user exactly when the user has the property.
There is one case for each property. -/
theorem Lookup.matches_filter (lookup : Lookup) (wanted : String) (user : User) :
    user.encode.matches (lookup.filter wanted) = lookup.holds wanted user := by
  cases lookup with
  | id => exact user.identifiedBy_encode.matches_id wanted
  | sub =>
      rw [filter, Document.matches_eq_text user.reach_sub, List.any_map]
      rfl
  | email =>
      rw [filter, Document.matches_eq_text user.reach_email]
      simp [holds]
  | name =>
      rw [filter, Document.matches_eq_text user.reach_name]
      simp [holds]
  | nameOrEmail =>
      have either := Filter.accepts_or (fun field => Document.reach user.encode (route field))
        (Filter.eq "name" (.string wanted)) (Filter.eq "email" (.string wanted))
      have byName := Document.matches_eq_text user.reach_name wanted
      have byEmail := Document.matches_eq_text user.reach_email wanted
      rw [filter, Document.matches, either, ← Document.matches, ← Document.matches, byName, byEmail]
      simp [holds]
  | verification =>
      rw [filter, Document.matches_eq_text user.reach_code, List.any_map]
      cases held : user.verification <;> simp [holds, User.hasVerificationCode, held]
  | passwordReset =>
      rw [filter, Document.matches_eq_text user.reach_token, List.any_map]
      cases held : user.passwordReset <;> simp [holds, User.hasPasswordResetToken, held]

/-- The membership filter of identifiers accepts the document of a user exactly when the user's
identifier is listed. -/
theorem User.matches_anyOf (user : User) (ids : List String) :
    user.encode.matches (.comparison idField .anyOf (.array (ids.map Value.string))) =
      ids.contains user.id := by
  simp only [Document.matches, Filter.accepts, user.identifiedBy_encode.reach]
  simp only [Operator.accepts, memberHit, Value.meets, Value.alternatives, List.any_cons,
    List.any_nil, Bool.or_false, List.any_map, List.contains_eq_any_beq]
  congr 1
  funext id
  simp only [Function.comp_apply, Value.alike_string]
  exact BEq.comm

end DocStore
