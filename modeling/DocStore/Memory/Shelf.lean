import DocStore.Query
import DocStore.Table
import DocStore.Update

/-!
# A collection in memory

A shelf holds the documents of one collection under keys. A document with a string identifier
stands under that identifier, any other under a key made up for it. What such a key looks like is
not settled here: a store is given a source of keys, of which nothing is known but that its keys are
not taken. Scans run in the order of the keys, and an operation on a single match takes the match
with the lowest key.

A write to a single document either succeeds or leaves the shelf as it was. A mass update changes
its documents one by one; when one of them cannot be changed, those before it stay changed.
-/

namespace DocStore

/-- The documents of a collection under their keys. -/
abbrev Shelf := Table Document

/-- Where the keys of documents without a string identifier come from. A key may depend on the
document and on all that is stored beside it, so that it may as well have been drawn at random. The
one thing that a store relies on is that no other document has it. -/
class KeySource where
  key : Shelf → Document → String
  fresh : ∀ (shelf : Shelf) (document : Document), key shelf document ∉ shelf.keys

namespace Shelf

/-- The key for a document: its identifier if that is a string, otherwise one from the source. -/
def keyFor [KeySource] (shelf : Shelf) (document : Document) : String :=
  match Document.field? document idField with
  | some (.string identifier) => identifier
  | _ => KeySource.key shelf document

/-- Adds a document under its key; a taken key is a clash. -/
def insert [KeySource] (shelf : Shelf) (document : Document) : Except StoreError Shelf :=
  match shelf.insertNew? (shelf.keyFor document) document with
  | some grown => .ok grown
  | none => .error (.duplicate (.document (shelf.keyFor document)))

/-- The documents that a filter accepts, under their keys. -/
def matching (shelf : Shelf) (filter : Filter) : Shelf :=
  shelf.filter fun document => document.matches filter

/-- The document with the lowest key among those that a filter accepts, with its key. -/
def firstMatch? (shelf : Shelf) (filter : Filter) : Option (String × Document) :=
  shelf.first? fun document => document.matches filter

/-- The value that a sort sees of a document: the first that the sort field reaches. -/
def sortValue (field : String) (document : Document) : Option Value :=
  (Document.reach document (route field)).head?

/-- True when a sort allows the left document to stand before the right one. Documents that it
does not tell apart may stand in either order, so that a stable sort keeps them as they are. -/
def inOrder (sort : SortOrder) (left right : Document) : Bool :=
  let ordering := compareForSort (sortValue sort.field left) (sortValue sort.field right)
  match sort.direction with
  | .ascending => ordering != .gt
  | .descending => ordering != .lt

/-- Sorts documents if that is asked. The sort is stable in both directions. -/
def sorted (sort : Option SortOrder) (documents : List Document) : List Document :=
  match sort with
  | some sort => documents.mergeSort (inOrder sort)
  | none => documents

/-- The part of a list that remains after skipping from its front and limiting its length. -/
def window (skip limit : Option Nat) (documents : List Document) : List Document :=
  let rest := documents.drop (skip.getD 0)
  match limit with
  | none | some 0 => rest
  | some bound => rest.take bound

/-- The documents that a scan yields: the matches in key order, sorted, then cut. -/
def scan (shelf : Shelf) (filter : Filter) (options : ScanOptions) : List Document :=
  window options.skip options.limit (sorted options.sort (shelf.matching filter).values)

/-- The first document of a scan, whatever limit its options set. -/
def scanOne (shelf : Shelf) (filter : Filter) (options : ScanOptions) : Option Document :=
  (shelf.scan filter { options with limit := some 1 }).head?

/-- The number of matches. -/
def count (shelf : Shelf) (filter : Filter) : Nat :=
  (shelf.matching filter).size

/-- The documents that remain when every match is removed. -/
def deleteMany (shelf : Shelf) (filter : Filter) : Shelf :=
  shelf.filter fun document => !document.matches filter

/-- Removes the first match, and tells how many were removed. -/
def deleteOne (shelf : Shelf) (filter : Filter) : Nat × Shelf :=
  match shelf.firstMatch? filter with
  | some (key, _) => (1, shelf.erase key)
  | none => (0, shelf)

/-- Puts a document in the place of the first match; without a match the document is added if
`upsert` says so. The replacement gets the key of its own identifier, which another document may
hold already. -/
def replaceOne [KeySource] (shelf : Shelf) (filter : Filter) (replacement : Document)
    (upsert : Bool) : Except StoreError Shelf :=
  match shelf.firstMatch? filter with
  | some (key, _) => insert (shelf.erase key) replacement
  | none => if upsert then shelf.insert replacement else .ok shelf

/-- Changes the document under a key. A key without a document stays without one. -/
def updateAt (shelf : Shelf) (changes : Document) (scopes : List ArrayFilter) (key : String) :
    Except StoreError Shelf :=
  match shelf.find? key with
  | none => .ok shelf
  | some document =>
      match document.update scopes changes with
      | .ok changed => .ok (shelf.put key changed)
      | .error refusal => .error (.invalidParams refusal)

/-- Changes the documents under several keys in turn, up to the first that cannot be changed. -/
def updateEach (changes : Document) (scopes : List ArrayFilter) :
    List String → Shelf → Except StoreError Unit × Shelf
  | [], shelf => (.ok (), shelf)
  | key :: keys, shelf =>
      match shelf.updateAt changes scopes key with
      | .error error => (.error error, shelf)
      | .ok changed => updateEach changes scopes keys changed

/-- Changes the first match. Without a match, and if `upsert` says so, the fields that the filter
fixes are changed instead and added as a new document. -/
def updateOne [KeySource] (shelf : Shelf) (filter : Filter) (changes : Document) (upsert : Bool) :
    Except StoreError Shelf :=
  match shelf.firstMatch? filter with
  | some (key, _) => shelf.updateAt changes [] key
  | none =>
      if upsert then
        match Document.update [] filter.equalityFields changes with
        | .ok document => shelf.insert document
        | .error refusal => .error (.invalidParams refusal)
      else .ok shelf

/-- Changes every match; the matches are determined before any of them changes. -/
def updateMany (shelf : Shelf) (filter : Filter) (changes : Document)
    (scopes : List ArrayFilter) : Except StoreError Unit × Shelf :=
  updateEach changes scopes (shelf.matching filter).keys shelf

/-- Carries out one write of a batch. -/
def write [KeySource] (shelf : Shelf) : Write → Except StoreError Unit × Shelf
  | .replaceOne filter replacement upsert =>
      match shelf.replaceOne filter replacement upsert with
      | .ok changed => (.ok (), changed)
      | .error error => (.error error, shelf)
  | .updateMany filter changes scopes => shelf.updateMany filter changes scopes

/-- Carries out a batch of writes in order, up to the first that fails. What the writes before it
have done stays done, and so does the part that the failing write has done. -/
def writeAll [KeySource] : List Write → Shelf → Except StoreError Unit × Shelf
  | [], shelf => (.ok (), shelf)
  | first :: rest, shelf =>
      match shelf.write first with
      | (.error error, changed) => (.error error, changed)
      | (.ok (), changed) => writeAll rest changed

/-- The length of the longest key. -/
def longestKey (shelf : Shelf) : Nat :=
  (shelf.keys.map String.length).max?.getD 0

/-- What a padded key begins with: a random identifier up to its last part. -/
def keyStem : String := "00000000-0000-4000-8000-"

/-- A key longer than all others: the form of a random identifier, with zeros for what would be
random and as many more as it takes. -/
def paddedKey (shelf : Shelf) : String :=
  keyStem ++ String.ofList (List.replicate (max 12 (shelf.longestKey - 23)) '0')

/-- No key is longer than the longest. -/
theorem length_le_longestKey {shelf : Shelf} {key : String} (taken : key ∈ shelf.keys) :
    key.length ≤ shelf.longestKey :=
  List.le_max?_getD_of_mem (List.mem_map_of_mem taken)

/-- Padding makes a key longer than all others. -/
theorem longestKey_lt_length_paddedKey (shelf : Shelf) :
    shelf.longestKey < shelf.paddedKey.length := by
  have stem : keyStem.length = 24 := by rfl
  rw [paddedKey, String.length_append, stem, String.length_ofList, List.length_replicate]
  omega

end Shelf

/-- Keys made by padding. They serve a store that is given no other source. -/
instance (priority := low) KeySource.padded : KeySource where
  key shelf _ := shelf.paddedKey
  fresh shelf _ taken :=
    Nat.not_le_of_lt shelf.longestKey_lt_length_paddedKey (Shelf.length_le_longestKey taken)

end DocStore
