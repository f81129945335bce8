import DocStore.Double

/-!
# Values and documents

The data that documents hold: the twenty-one kinds of value of the BSON format. A document is its
fields in order. Writing a field that exists keeps its place, and a new field goes last, so the
names of a document built by `put` alone never repeat. A lookup finds the first field of a name.
-/

namespace DocStore

/-- The kinds of value, named as error messages name them. -/
inductive Kind where
  | double
  | string
  | embeddedDocument
  | array
  | binary
  | undefined
  | objectId
  | boolean
  | dateTime
  | null
  | regularExpression
  | dbPointer
  | javaScriptCode
  | symbol
  | javaScriptCodeWithScope
  | int32
  | timestamp
  | int64
  | decimal128
  | maxKey
  | minKey
deriving DecidableEq, Repr

/-- The name of a kind in error messages. -/
def Kind.name : Kind → String
  | .double => "Double"
  | .string => "String"
  | .embeddedDocument => "EmbeddedDocument"
  | .array => "Array"
  | .binary => "Binary"
  | .undefined => "Undefined"
  | .objectId => "ObjectId"
  | .boolean => "Boolean"
  | .dateTime => "DateTime"
  | .null => "Null"
  | .regularExpression => "RegularExpression"
  | .dbPointer => "DbPointer"
  | .javaScriptCode => "JavaScriptCode"
  | .symbol => "Symbol"
  | .javaScriptCodeWithScope => "JavaScriptCodeWithScope"
  | .int32 => "Int32"
  | .timestamp => "Timestamp"
  | .int64 => "Int64"
  | .decimal128 => "Decimal128"
  | .maxKey => "MaxKey"
  | .minKey => "MinKey"

/-- A stored value. Object identifiers, also those in pointers, and decimals are opaque bytes here:
the store neither reads nor compares their content, except for equality. -/
inductive Value where
  | double (number : Double)
  | string (text : String)
  | document (fields : List (String × Value))
  | array (items : List Value)
  | binary (subtype : UInt8) (bytes : List UInt8)
  | undefined
  | objectId (bytes : List UInt8)
  | boolean (flag : Bool)
  | dateTime (millis : Int64)
  | null
  | regularExpression (pattern options : String)
  | dbPointer (target : String) (bytes : List UInt8)
  | javaScriptCode (source : String)
  | symbol (name : String)
  | javaScriptCodeWithScope (source : String) (scope : List (String × Value))
  | int32 (number : Int32)
  | timestamp (time increment : UInt32)
  | int64 (number : Int64)
  | decimal128 (bytes : List UInt8)
  | maxKey
  | minKey
deriving Repr, Inhabited

/-- The fields of a document, in order. -/
abbrev Document := List (String × Value)

/-- The kind of a value. -/
def Value.kind : Value → Kind
  | .double _ => .double
  | .string _ => .string
  | .document _ => .embeddedDocument
  | .array _ => .array
  | .binary _ _ => .binary
  | .undefined => .undefined
  | .objectId _ => .objectId
  | .boolean _ => .boolean
  | .dateTime _ => .dateTime
  | .null => .null
  | .regularExpression _ _ => .regularExpression
  | .dbPointer _ _ => .dbPointer
  | .javaScriptCode _ => .javaScriptCode
  | .symbol _ => .symbol
  | .javaScriptCodeWithScope _ _ => .javaScriptCodeWithScope
  | .int32 _ => .int32
  | .timestamp _ _ => .timestamp
  | .int64 _ => .int64
  | .decimal128 _ => .decimal128
  | .maxKey => .maxKey
  | .minKey => .minKey

/-- True exactly for embedded documents. -/
def Value.isDocument : Value → Bool
  | .document _ => true
  | _ => false

namespace Document

/-- The value of the first field called `name`. -/
def field? : Document → String → Option Value
  | [], _ => none
  | (current, value) :: rest, name => if current = name then some value else field? rest name

/-- Writes a field: in its place when the document has it, last otherwise. -/
def put (document : Document) (name : String) (value : Value) : Document :=
  match document with
  | [] => [(name, value)]
  | (current, old) :: rest =>
      if current = name then (current, value) :: rest else (current, old) :: put rest name value

/-- The document that holds the given fields, a repeated name keeping its first place and its last
value. -/
def ofFields (fields : List (String × Value)) : Document :=
  fields.foldl (fun document field => put document field.1 field.2) []

/-- The names of the fields, in order. -/
def names (document : Document) : List String :=
  document.map (·.1)

@[simp] theorem field?_nil (name : String) : field? [] name = none := rfl

theorem field?_cons (current name : String) (value : Value) (rest : Document) :
    field? ((current, value) :: rest) name =
      if current = name then some value else field? rest name := rfl

/-- A field reads back as it was written, and writing it disturbs no other field. -/
theorem field?_put (document : Document) (name other : String) (value : Value) :
    field? (put document name value) other =
      if name = other then some value else field? document other := by
  induction document with
  | nil => simp [put, field?]
  | cons field rest ih =>
      obtain ⟨current, old⟩ := field
      by_cases here : current = name
      · subst here
        by_cases asked : current = other <;> simp [put, field?, asked]
      · by_cases asked : current = other
        · subst asked
          simp [put, field?, here, Ne.symm here]
        · simp [put, field?, here, asked, ih]

/-- The first field of a name splits a document in what stands before it and behind it. -/
theorem field?_eq_some_iff {document : Document} {name : String} {value : Value} :
    field? document name = some value ↔
      ∃ before after, document = before ++ (name, value) :: after ∧ name ∉ names before := by
  induction document with
  | nil => simp
  | cons field rest ih =>
      obtain ⟨current, first⟩ := field
      rw [field?_cons]
      constructor
      · intro found
        split at found
        · rename_i here
          cases found
          exact ⟨[], rest, by rw [here, List.nil_append], List.not_mem_nil⟩
        · rename_i apart
          obtain ⟨before, after, rfl, absent⟩ := ih.mp found
          refine ⟨(current, first) :: before, after, rfl, ?_⟩
          simp only [names, List.map_cons, List.mem_cons, not_or]
          exact ⟨Ne.symm apart, absent⟩
      · rintro ⟨before, after, split, absent⟩
        cases before with
        | nil =>
            obtain ⟨⟨rfl, rfl⟩, -⟩ := by simpa using split
            rw [if_pos rfl]
        | cons head before =>
            obtain ⟨rfl, rfl⟩ := List.cons.inj split
            simp only [names, List.map_cons, List.mem_cons, not_or] at absent
            rw [if_neg (Ne.symm absent.1)]
            exact ih.mpr ⟨before, after, rfl, absent.2⟩

/-- Writing a field that a document has leaves what stands before it and behind it. -/
theorem put_append {before after : Document} {name : String} (absent : name ∉ names before)
    (old new : Value) :
    put (before ++ (name, old) :: after) name new = before ++ (name, new) :: after := by
  induction before with
  | nil => simp [put]
  | cons field before ih =>
      obtain ⟨current, first⟩ := field
      simp only [names, List.map_cons, List.mem_cons, not_or] at absent
      rw [List.cons_append, put, if_neg (Ne.symm absent.1), ih absent.2, List.cons_append]

/-- Writing a field adds its name exactly when the document lacks it. -/
theorem names_put (document : Document) (name : String) (value : Value) :
    names (put document name value) =
      if name ∈ names document then names document else names document ++ [name] := by
  induction document with
  | nil => simp [put, names]
  | cons field rest ih =>
      obtain ⟨current, old⟩ := field
      by_cases here : current = name
      · simp [put, names, here]
      · simp only [names, put, here, if_false, List.map_cons, List.mem_cons, Ne.symm here,
          false_or] at ih ⊢
        rw [ih]
        split <;> simp [*]

end Document

end DocStore
