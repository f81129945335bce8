import DocStore.Proofs.Convention
import DocStore.Proofs.MassUpdates

/-!
# Scans by identifier

On a shelf that satisfies the convention the identifiers are the keys. A comparison of the
identifier is one of the key, a scan that is sorted by identifier lists the matches in the order of
their keys, and a scan from the highest identifier down lists them the other way round.
-/

namespace DocStore

/-- The field name of the identifier reaches that field alone. -/
theorem Document.reach_idField (document : Document) :
    Document.reach document (route idField) = (Document.field? document idField).toList := by
  have single : route idField = [idField] := segments_idField
  rw [single, Document.reach, reachField_eq]
  cases Document.field? document idField with
  | none => rfl
  | some value => simp

/-- The field name of the identifier reaches a string identifier alone. -/
theorem Document.IdentifiedBy.reach {document : Document} {identifier : String}
    (carried : document.IdentifiedBy identifier) :
    Document.reach document (route idField) = [.string identifier] := by
  rw [Document.reach_idField, carried]
  rfl

/-- Texts are compared as less exactly when the left one is below the right one. -/
theorem compare_string_eq_lt (left right : String) :
    (compare left right == .lt) = decide (left < right) := by
  rw [Bool.eq_iff_iff, beq_iff_eq, decide_eq_true_iff]
  exact compareOfLessAndEq_eq_lt

/-- Texts are compared as greater exactly when the right one is below the left one. -/
theorem compare_string_eq_gt (left right : String) :
    (compare left right == .gt) = decide (right < left) := by
  rw [Bool.eq_iff_iff, beq_iff_eq, decide_eq_true_iff]
  exact compareOfLessAndEq_eq_gt String.le_antisymm String.le_total String.not_le left right

/-- An equality with a text on the identifier holds of that identifier alone. -/
theorem Document.IdentifiedBy.matches_id {document : Document} {identifier : String}
    (carried : document.IdentifiedBy identifier) (other : String) :
    document.matches (Filter.id other) = (identifier == other) := by
  simp only [Document.matches, Filter.id, Filter.eq, Filter.accepts, carried.reach]
  simp [Operator.accepts, Value.meets]

/-- A document behind a text is one with a greater identifier. -/
theorem Document.IdentifiedBy.matches_gt {document : Document} {identifier : String}
    (carried : document.IdentifiedBy identifier) (text : String) :
    document.matches (.comparison idField .gt (.string text)) = decide (text < identifier) := by
  simp only [Document.matches, Filter.accepts, carried.reach]
  simp [Operator.accepts, Value.meets, Value.ordered, Value.order?, Value.scalar?, Scalar.order?,
    compare_string_eq_gt]

/-- A document before a text is one with a lower identifier. -/
theorem Document.IdentifiedBy.matches_lt {document : Document} {identifier : String}
    (carried : document.IdentifiedBy identifier) (text : String) :
    document.matches (.comparison idField .lt (.string text)) = decide (identifier < text) := by
  simp only [Document.matches, Filter.accepts, carried.reach]
  simp [Operator.accepts, Value.meets, Value.ordered, Value.order?, Value.scalar?, Scalar.order?,
    compare_string_eq_lt]

/-- A document matches a filter and a further condition exactly when it matches both. -/
theorem Document.matches_and (document : Document) (filter other : Filter) :
    document.matches (filter.and other) = (document.matches filter && document.matches other) :=
  Filter.accepts_and _ filter other

namespace Shelf

/-- Sorts compare string identifiers as texts. -/
theorem compareForSort_id {left right : Document} {identifier other : String}
    (leftCarries : left.IdentifiedBy identifier) (rightCarries : right.IdentifiedBy other) :
    compareForSort (sortValue idField left) (sortValue idField right) =
      compare identifier other := by
  simp only [sortValue, leftCarries.reach, rightCarries.reach]
  simp [compareForSort, Value.rank, Value.order?, Value.scalar?, Scalar.order?]

/-- A sort by identifier puts the lower identifier first. -/
theorem inOrder_ascending {left right : Document} {identifier other : String}
    (leftCarries : left.IdentifiedBy identifier) (rightCarries : right.IdentifiedBy other) :
    inOrder ⟨idField, .ascending⟩ left right = decide (identifier ≤ other) := by
  simp only [inOrder, compareForSort_id leftCarries rightCarries, bne, compare_string_eq_gt]
  rw [← decide_not]
  exact decide_eq_decide.mpr String.not_lt

/-- A descending sort by identifier puts the higher identifier first. -/
theorem inOrder_descending {left right : Document} {identifier other : String}
    (leftCarries : left.IdentifiedBy identifier) (rightCarries : right.IdentifiedBy other) :
    inOrder ⟨idField, .descending⟩ left right = decide (other ≤ identifier) := by
  simp only [inOrder, compareForSort_id leftCarries rightCarries, bne, compare_string_eq_lt]
  rw [← decide_not]
  exact decide_eq_decide.mpr String.not_lt

/-- The document of an identifier is the one under that key, if there is one. -/
theorem firstMatch?_id {shelf : Shelf} (conventional : shelf.Conventional)
    (identifier : String) :
    shelf.firstMatch? (Filter.id identifier) =
      (shelf.find? identifier).map fun document => (identifier, document) := by
  apply Table.first?_eq_of_unique
  intro key document found
  rw [(conventional key document found).matches_id, beq_iff_eq]

/-- No match is counted exactly when none is first. -/
theorem count_eq_zero_iff (shelf : Shelf) (filter : Filter) :
    shelf.count filter = 0 ↔ shelf.firstMatch? filter = none := by
  simp [count, matching, Table.filter, Table.size, firstMatch?, Table.first?]

/-- Saving under an identifier puts the document there, whether the key was taken or not. -/
theorem replaceOne_id [KeySource] {shelf : Shelf} (conventional : shelf.Conventional)
    {identifier : String} {replacement : Document} (carried : replacement.IdentifiedBy identifier) :
    shelf.replaceOne (Filter.id identifier) replacement true =
      .ok (shelf.put identifier replacement) := by
  rw [replaceOne, firstMatch?_id conventional]
  cases found : shelf.find? identifier with
  | some previous =>
      apply (insert_eq_ok_iff _ _ _).mpr
      rw [keyFor_eq carried, Table.put_erase, Table.find?_erase, if_pos rfl]
      exact ⟨rfl, rfl⟩
  | none =>
      apply (insert_eq_ok_iff _ _ _).mpr
      rw [keyFor_eq carried]
      exact ⟨found, rfl⟩

/-- Removing the document of an identifier erases its key, whether it was taken or not. -/
theorem deleteOne_id {shelf : Shelf} (conventional : shelf.Conventional) (identifier : String) :
    (shelf.deleteOne (Filter.id identifier)).2 = shelf.erase identifier := by
  rw [deleteOne, firstMatch?_id conventional]
  cases found : shelf.find? identifier with
  | some document => rfl
  | none => exact (Table.erase_eq_self found).symm

/-- The matches of a shelf that satisfies the convention satisfy it as well. -/
theorem Conventional.matching {shelf : Shelf} (conventional : shelf.Conventional)
    (filter : Filter) : (shelf.matching filter).Conventional :=
  Table.Each.filter conventional _

/-- A listed document carries its key. -/
theorem Conventional.identified {shelf : Shelf} (conventional : shelf.Conventional)
    {binding : String × Document} (listed : binding ∈ shelf.bindings) :
    binding.2.IdentifiedBy binding.1 :=
  conventional binding.1 binding.2 ((Table.mem_bindings_iff shelf _ _).mp listed)

/-- A scan in ascending order of the identifiers keeps the order of the keys. -/
theorem sorted_ascending {shelf : Shelf} (conventional : shelf.Conventional) :
    sorted (some ⟨idField, .ascending⟩) shelf.values = shelf.values := by
  apply List.mergeSort_of_pairwise
  apply List.pairwise_map.mpr
  apply shelf.ascending.imp_of_mem
  intro left right leftListed rightListed below
  rw [inOrder_ascending (conventional.identified leftListed) (conventional.identified rightListed),
    decide_eq_true_iff]
  exact Std.le_of_lt below

/-- Sorted from the highest key down, the bindings stand the other way round. Both lists hold the
same bindings in the same order, and no two keys are equal. -/
theorem bindings_mergeSort_descending (shelf : Shelf) :
    (shelf.bindings.mergeSort fun left right => decide (right.1 ≤ left.1)) =
      shelf.bindings.reverse := by
  have transitive : ∀ first second third : String × Document,
      decide (second.1 ≤ first.1) = true → decide (third.1 ≤ second.1) = true →
        decide (third.1 ≤ first.1) = true := by
    intro first second third above below
    exact decide_eq_true (Std.le_trans (of_decide_eq_true below) (of_decide_eq_true above))
  have total : ∀ left right : String × Document,
      (decide (right.1 ≤ left.1) || decide (left.1 ≤ right.1)) = true := by
    intro left right
    simpa using String.le_total right.1 left.1
  have sortedPairs := List.pairwise_mergeSort transitive total shelf.bindings
  have reversedPairs : shelf.bindings.reverse.Pairwise fun left right =>
      decide (right.1 ≤ left.1) = true :=
    List.pairwise_reverse.mpr (shelf.ascending.imp fun below => decide_eq_true (Std.le_of_lt below))
  refine List.Perm.eq_of_pairwise ?_ sortedPairs reversedPairs
    ((List.mergeSort_perm _ _).trans (List.reverse_perm _).symm)
  intro left right leftListed rightListed high low
  exact Table.eq_of_key_eq ((List.mergeSort_perm _ _).mem_iff.mp leftListed)
    (List.mem_reverse.mp rightListed)
    (String.le_antisymm (of_decide_eq_true low) (of_decide_eq_true high))

/-- A scan in descending order of the identifiers reverses the order of the keys: the documents
are sorted as their keys are. -/
theorem sorted_descending {shelf : Shelf} (conventional : shelf.Conventional) :
    sorted (some ⟨idField, .descending⟩) shelf.values = shelf.values.reverse := by
  have byKey : (shelf.bindings.mergeSort fun left right => decide (right.1 ≤ left.1)).map (·.2) =
      shelf.values.mergeSort (inOrder ⟨idField, .descending⟩) := by
    apply List.map_mergeSort
    intro left leftListed right rightListed
    exact (inOrder_descending (conventional.identified leftListed)
      (conventional.identified rightListed)).symm
  rw [sorted, ← byKey, bindings_mergeSort_descending, List.map_reverse, Table.values]

/-- The first document of a scan by identifier is the first match. -/
theorem scanOne_byId {shelf : Shelf} (conventional : shelf.Conventional) (filter : Filter) :
    shelf.scanOne filter ScanOptions.byId = (shelf.firstMatch? filter).map (·.2) := by
  have ordered := sorted_ascending (conventional.matching filter)
  change ((sorted (some ⟨idField, .ascending⟩) (shelf.matching filter).values).take 1).head? = _
  rw [ordered, List.head?_take, if_neg Nat.one_ne_zero, Table.values, List.head?_map, matching,
    Table.filter, List.head?_filter]
  rfl

end Shelf

end DocStore
