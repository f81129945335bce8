import DocStore.Error
import DocStore.Filter

/-!
# Typed documents

A record type takes part in a store by a codec: how its values are written as documents, how
documents are read back, which string identifies a value, and where the values are kept. A stored
document must carry the identifier of its value as a string under `id`, and a codec that does not
write it there is caught when it writes.

Reading is more lenient than writing: a text may also be stored as bytes in UTF-8, as long as their
subtype gives them no other purpose.
-/

namespace DocStore

/-- How values of a type are kept as documents. -/
structure Codec (α : Type) where
  collection : String
  identify : α → String
  encode : α → Document
  decode : Document → Option α

namespace Codec

variable {α : Type}

/-- The document of a value, which holds the value's identifier under `id`. -/
def toDocument (codec : Codec α) (value : α) : Except StoreError Document :=
  let document := codec.encode value
  match Document.field? document idField with
  | some (.string identifier) =>
      if identifier = codec.identify value then .ok document
      else .error (.internal (.unidentified (codec.identify value)))
  | _ => .error (.internal (.unidentified (codec.identify value)))

/-- The value that a document holds. -/
def ofDocument (codec : Codec α) (document : Document) : Except StoreError α :=
  match codec.decode document with
  | some value => .ok value
  | none => .error (.internal .undecodable)

/-- Writing succeeds exactly when the identifier stands under `id`. -/
theorem toDocument_eq_ok_iff (codec : Codec α) (value : α) (document : Document) :
    codec.toDocument value = .ok document ↔
      document = codec.encode value ∧
        Document.field? (codec.encode value) idField = some (.string (codec.identify value)) := by
  unfold toDocument
  constructor
  · intro success
    simp only at success
    split at success
    · rename_i identifier found
      split at success
      · rename_i same
        cases success
        exact ⟨rfl, by rw [found, same]⟩
      · cases success
    · cases success
  · rintro ⟨rfl, found⟩
    simp [found]

end Codec

namespace Value

/-- The subtype of bytes that have no purpose of their own. -/
def genericSubtype : UInt8 := 0

/-- The text of a string value. -/
def string? : Value → Option String
  | .string text => some text
  | _ => none

/-- The text that a value holds: that of a string, or the one that generic bytes spell in
UTF-8. -/
def text? : Value → Option String
  | .string text => some text
  | .binary subtype bytes =>
      if subtype = genericSubtype then String.fromUTF8? bytes.toByteArray else none
  | _ => none

/-- The truth value of a boolean. -/
def flag? : Value → Option Bool
  | .boolean flag => some flag
  | _ => none

/-- The elements of an array. -/
def items? : Value → Option (List Value)
  | .array items => some items
  | _ => none

/-- The integer of a whole number of either width. -/
def integer? : Value → Option Int
  | .int32 number => some number.toInt
  | .int64 number => some number.toInt
  | _ => none

/-- The fields of a record whose field names are given in order: those of a document, or the
elements of an array taken in that order. -/
def record? (names : List String) : Value → Option Document
  | .document fields => some fields
  | .array items => some (names.zip items)
  | _ => none

end Value

/-- Every string value has a text, its own. -/
@[simp] theorem Value.text?_string (text : String) : (Value.string text).text? = some text := rfl

/-- The bytes of a text in UTF-8 hold that text when they are generic, and none otherwise. -/
theorem Value.text?_binary_toByteArray (subtype : UInt8) (text : String) :
    (Value.binary subtype text.toByteArray.data.toList).text? =
      if subtype = genericSubtype then some text else none := by
  have listed : text.toByteArray.data.toList.toByteArray = text.toByteArray := by
    apply ByteArray.ext
    rw [List.data_toByteArray, Array.toArray_toList]
  simp only [text?, listed]
  split
  · rw [String.fromUTF8?, dif_pos text.isValidUTF8]
    rfl
  · rfl

/-- Reads a required field of a document. -/
def Document.required {α : Type} (document : Document) (name : String)
    (read : Value → Option α) : Option α :=
  (Document.field? document name).bind read

/-- Reads a field that may be missing or null. -/
def Document.optional {α : Type} (document : Document) (name : String)
    (read : Value → Option α) : Option (Option α) :=
  match Document.field? document name with
  | none | some .null => some none
  | some value => (read value).map some

end DocStore
