import DocStore.Proofs.TimeTexts
import DocStore.Proofs.UserDocuments

/-!
# Users read back

A user is written as a document, and the document is read as the same user, texts and times
included. Reading looks at the fields of a user only, so further fields may stand in the document,
as long as they have names of their own.
-/

namespace DocStore

namespace Document

/-- The document with further fields written into it, one after the other. -/
def putAll (document : Document) (fields : List (String × Value)) : Document :=
  fields.foldl (fun grown field => put grown field.1 field.2) document

/-- A field with none of the names that are written reads as before. -/
theorem field?_putAll {fields : List (String × Value)} {name : String}
    (absent : ∀ field ∈ fields, field.1 ≠ name) (document : Document) :
    field? (document.putAll fields) name = field? document name := by
  induction fields generalizing document with
  | nil => rfl
  | cons first rest ih =>
      have step : document.putAll (first :: rest) =
          (put document first.1 first.2).putAll rest := rfl
      rw [step, ih fun field inside => absent field (List.mem_cons_of_mem _ inside), field?_put,
        if_neg (absent first List.mem_cons_self)]

end Document

namespace User

/-- The names of the fields that a user's document may have. -/
def fieldNames : List String :=
  [idField, "name", "email", "auths", "verification", "password_reset"]

/-- The times of a user are within the range of years, and outside of leap seconds. -/
structure TimesInRange (user : User) : Prop where
  expiry : ∀ verification, user.verification = some verification →
    verification.expiresAt.InRange
  creation : ∀ reset, user.passwordReset = some reset → reset.createdAt.InRange

/-- Times in range are read back. -/
theorem TimesInRange.readBack {user : User} (inRange : user.TimesInRange) :
    user.TimesReadBack := by
  constructor
  · intro verification held
    exact Instant.read?_text (inRange.expiry verification held)
  · intro reset held
    exact Instant.read?_text (inRange.creation reset held)

/-- Reading a user looks at the fields of a user and at nothing else. -/
theorem decode_congr {left right : Document}
    (alike : ∀ name ∈ fieldNames, Document.field? left name = Document.field? right name) :
    decode left = decode right := by
  simp only [fieldNames, List.forall_mem_cons, List.not_mem_nil, false_implies, implies_true,
    and_true] at alike
  obtain ⟨id, name, email, auths, verification, passwordReset⟩ := alike
  simp only [decode, decodeAuths, Document.required, Document.optional, id, name, email, auths,
    verification, passwordReset]

/-- A user whose times are in range can be written. Its document carries the identifier of the user
as a string, and is read as the same user, also when further fields with other names than those of
a user are written into it. -/
theorem documents_read_back {user : User} (inRange : user.TimesInRange) :
    ∃ document, codec.toDocument user = .ok document ∧ document.IdentifiedBy user.id ∧
      codec.ofDocument document = .ok user ∧
      ∀ extras : List (String × Value), (∀ extra ∈ extras, extra.1 ∉ fieldNames) →
        codec.ofDocument (document.putAll extras) = .ok user := by
  have read : ∀ extras : List (String × Value), (∀ extra ∈ extras, extra.1 ∉ fieldNames) →
      codec.ofDocument (user.encode.putAll extras) = .ok user := by
    intro extras foreign
    have kept : decode (user.encode.putAll extras) = decode user.encode := by
      apply decode_congr
      intro name own
      apply Document.field?_putAll
      intro extra inside same
      exact foreign extra inside (same ▸ own)
    have decoded : codec.decode (user.encode.putAll extras) = some user :=
      kept.trans (decode_encode inRange.readBack)
    rw [Codec.ofDocument, decoded]
  refine ⟨user.encode, user.toDocument_eq, user.identifiedBy_encode, ?_, read⟩
  exact read [] fun extra inside => absurd inside List.not_mem_nil

/-- A user with a time before the year zero and one in a year of five digits, and a document with
two further fields. -/
theorem documents_read_back_of_far_times :
    let user : User :=
      { id := "u1", name := "", email := "ann@x", auths := [⟨"x", "x|1"⟩, ⟨"", ""⟩]
        verification := some ⟨"code", ⟨-62198755200, 120000000⟩, false⟩
        passwordReset := some ⟨"token", ⟨253402300800, 1⟩⟩ }
    ∃ document, codec.toDocument user = .ok document ∧ document.IdentifiedBy "u1" ∧
      codec.ofDocument document = .ok user ∧
      codec.ofDocument (document.putAll [("zip", .null), ("Name", .int32 3)]) = .ok user := by
  intro user
  have inRange : user.TimesInRange := by
    constructor
    · rintro verification ⟨rfl⟩
      exact ⟨by decide +kernel, by decide⟩
    · rintro reset ⟨rfl⟩
      exact ⟨by decide +kernel, by decide⟩
  obtain ⟨document, written, carried, read, readGrown⟩ := documents_read_back inRange
  refine ⟨document, written, carried, read, readGrown _ ?_⟩
  decide

end User

end DocStore
