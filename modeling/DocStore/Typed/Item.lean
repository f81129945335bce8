import DocStore.Typed

/-!
# Items

The smallest useful record, an identifier with a rank, and beside it a record that breaks the
convention of the identifier field.
-/

namespace DocStore

/-- A ranked item. -/
structure Item where
  id : String
  rank : Int32
deriving DecidableEq, Repr

namespace Item

/-- The item that a document holds: the identifier must be a text, and the rank a whole number that
fits its width. -/
def decode (document : Document) : Option Item := do
  let id ← Document.required document idField Value.text?
  let rank ← Document.required document "rank" Value.integer?
  if -2147483648 ≤ rank ∧ rank ≤ 2147483647 then some ⟨id, Int32.ofInt rank⟩ else none

/-- Items are kept as documents of two fields. -/
def codec : Codec Item where
  collection := "items"
  identify := Item.id
  encode item := [(idField, .string item.id), ("rank", .int32 item.rank)]
  decode := decode

/-- An item is always written, under its identifier. -/
theorem toDocument_eq (item : Item) :
    codec.toDocument item = .ok [(idField, .string item.id), ("rank", .int32 item.rank)] := by
  simp [Codec.toDocument, codec, Document.field?]

end Item

/-- A record that writes its identifier under `key`. -/
structure Keyed where
  id : String
deriving DecidableEq, Repr

/-- The codec of a record that breaks the convention. -/
def Keyed.codec : Codec Keyed where
  collection := "renamed"
  identify := Keyed.id
  encode keyed := [("key", .string keyed.id)]
  decode document := (Document.required document "key" Value.text?).map Keyed.mk

/-- A record without its identifier under `id` is never written. -/
theorem Keyed.toDocument_eq (keyed : Keyed) :
    Keyed.codec.toDocument keyed = .error (.internal (.unidentified keyed.id)) := by
  simp [Codec.toDocument, codec, Document.field?, idField]

end DocStore
