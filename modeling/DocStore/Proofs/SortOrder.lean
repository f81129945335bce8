import DocStore.Proofs.IdScans
import DocStore.Proofs.Rounding

/-!
# The order of sorts

A sort compares two values by their kind, and within a kind by a number or by a text. Main
statement: without a NaN this is the comparison of keys, each made of the rank, the number and the
text of a value. It is therefore transitive and total, and a sort leaves every document in order
with all that come after it. A NaN has no place among the numbers. Only a double can be one, for an
integer of any width is rounded to a number that has a place.
-/

namespace DocStore

namespace Value

/-- The value is a number that has no place among the numbers. -/
def IsNaN (value : Value) : Prop :=
  ∃ number, value = .double number ∧ number.position? = none

/-- The number by which a sort compares values of one kind. -/
def sortNumber (value : Value) : Int :=
  match value.scalar? with
  | some (.boolean flag) => if flag then 1 else 0
  | some (.number number) => number.position?.getD 0
  | some (.dateTime millis) => millis.toInt
  | _ => 0

/-- The text by which a sort compares values of one kind. -/
def sortText (value : Value) : String :=
  match value.scalar? with
  | some (.string text) => text
  | _ => ""

/-- The comparison of the keys of two values: the rank first, then the number, then the text. -/
def compareKeys : Value → Value → Ordering :=
  compareLex (compareOn rank) (compareLex (compareOn sortNumber) (compareOn sortText))

/-- The comparison of keys is a total preorder. -/
instance : Std.TransCmp compareKeys :=
  inferInstanceAs (Std.TransCmp (compareLex (compareOn rank)
    (compareLex (compareOn sortNumber) (compareOn sortText))))

/-- What a filter sees as a number has a place among the numbers, unless it is a NaN. -/
theorem position?_of_scalar? {value : Value} (proper : ¬ value.IsNaN) {number : Double}
    (seen : value.scalar? = some (.number number)) : number.position? ≠ none := by
  cases value with
  | double own =>
      cases seen
      exact fun missing => proper ⟨number, rfl, missing⟩
  | int32 own =>
      cases seen
      have low := own.le_toInt
      have high := own.toInt_lt
      exact Double.position?_ofInt (by omega)
  | int64 own =>
      cases seen
      have low := own.le_toInt
      have high := own.toInt_lt
      exact Double.position?_ofInt (by omega)
  | _ => cases seen

/-- Flags are compared as the numbers zero and one. -/
theorem compare_flags (left right : Bool) :
    compare left right = compare (if left then 1 else 0 : Int) (if right then 1 else 0) := by
  cases left <;> cases right <;> rfl

end Value

/-- Without a NaN a sort compares keys. Values of different kinds differ in rank; those of one kind
are compared by what the kind has, and what it lacks is equal. -/
theorem compareForSort_eq {left right : Option Value} (leftProper : ¬ (left.getD .null).IsNaN)
    (rightProper : ¬ (right.getD .null).IsNaN) :
    compareForSort left right = (left.getD .null).compareKeys (right.getD .null) := by
  simp only [compareForSort]
  generalize left.getD .null = left at leftProper ⊢
  generalize right.getD .null = right at rightProper ⊢
  simp only [Value.compareKeys, compareLex, compareOn, Value.rank, Value.order?, Value.sortNumber,
    Value.sortText]
  cases leftSeen : left.scalar? with
  | none =>
      cases rightSeen : right.scalar? with
      | none => simp
      | some scalar => cases scalar <;> (dsimp only; split <;> rfl)
  | some scalar =>
      cases rightSeen : right.scalar? with
      | none => cases scalar <;> (dsimp only; split <;> rfl)
      | some other =>
          cases scalar with
          | null => cases other <;> rfl
          | boolean flag =>
              cases other with
              | boolean otherFlag => simp [Scalar.order?, Value.compare_flags]
              | _ => rfl
          | number number =>
              cases other with
              | number otherNumber =>
                  obtain ⟨position, found⟩ := Option.ne_none_iff_exists'.mp
                    (Value.position?_of_scalar? leftProper leftSeen)
                  obtain ⟨otherPosition, otherFound⟩ := Option.ne_none_iff_exists'.mp
                    (Value.position?_of_scalar? rightProper rightSeen)
                  simp [Scalar.order?, Double.order?, found, otherFound]
              | _ => rfl
          | dateTime millis =>
              cases other with
              | dateTime otherMillis => simp [Scalar.order?]
              | _ => rfl
          | string text =>
              cases other with
              | string otherText => simp [Scalar.order?]
              | _ => rfl

/-- Of items on which a test is transitive and total, a sort by the test leaves each in order with
all that come after it. The items are sorted as those of the subtype are. -/
theorem pairwise_mergeSort_of_forall {α : Type} {test : α → α → Bool} {holds : α → Prop}
    (transitive : ∀ first second third, holds first → holds second → holds third →
      test first second = true → test second third = true → test first third = true)
    (total : ∀ left right, holds left → holds right → (test left right || test right left) = true)
    {items : List α} (proper : ∀ item ∈ items, holds item) :
    (items.mergeSort test).Pairwise fun left right => test left right = true := by
  let within : { item // holds item } → { item // holds item } → Bool :=
    fun left right => test left.1 right.1
  have ordered : ((items.attachWith holds proper).mergeSort within).Pairwise
      fun left right => within left right = true :=
    List.pairwise_mergeSort
      (fun first second third => transitive first.1 second.1 third.1 first.2 second.2 third.2)
      (fun left right => total left.1 right.1 left.2 right.2) _
  have same : ((items.attachWith holds proper).mergeSort within).map Subtype.val =
      items.mergeSort test := by
    rw [@List.map_mergeSort _ _ within test Subtype.val _ fun _ _ _ _ => rfl,
      List.attachWith_map_subtype_val]
  rw [← same]
  exact List.pairwise_map.mpr ordered

namespace Shelf

/-- A sort does not compare a document by a NaN. -/
def Sortable (sort : SortOrder) (document : Document) : Prop :=
  ¬ ((sortValue sort.field document).getD .null).IsNaN

/-- The comparison of two documents by the keys of what a sort sees of them, in the direction of the
sort. -/
def compareDocuments (sort : SortOrder) (left right : Document) : Ordering :=
  let keys := ((sortValue sort.field left).getD .null).compareKeys
    ((sortValue sort.field right).getD .null)
  match sort.direction with
  | .ascending => keys
  | .descending => keys.swap

/-- A sort allows a document before another one exactly when the comparison does not put it
behind. -/
theorem inOrder_eq_isLE {sort : SortOrder} {left right : Document} (leftProper : Sortable sort left)
    (rightProper : Sortable sort right) :
    inOrder sort left right = (compareDocuments sort left right).isLE := by
  simp only [inOrder, compareDocuments, compareForSort_eq leftProper rightProper]
  generalize Value.compareKeys _ _ = keys
  cases sort.direction <;> cases keys <;> rfl

/-- Documents are compared by a total preorder, in both directions. -/
instance (sort : SortOrder) : Std.TransCmp (compareDocuments sort) where
  eq_swap {left right} := by
    simp only [compareDocuments]
    rw [@Std.OrientedCmp.eq_swap _ Value.compareKeys]
    cases sort.direction <;> rfl
  isLE_trans {first second third} before after := by
    simp only [compareDocuments] at before after ⊢
    cases direction : sort.direction <;>
      simp only [direction, Ordering.isLE_swap] at before after ⊢
    · exact Std.TransCmp.isLE_trans before after
    · exact Std.TransCmp.isGE_trans before after

/-- A sort leaves every document in order with all that come after it. -/
theorem pairwise_sorted {sort : SortOrder} {documents : List Document}
    (proper : ∀ document ∈ documents, Sortable sort document) :
    (sorted (some sort) documents).Pairwise fun left right => inOrder sort left right = true := by
  refine pairwise_mergeSort_of_forall ?_ ?_ proper
  · intro first second third firstProper secondProper thirdProper before after
    rw [inOrder_eq_isLE firstProper secondProper] at before
    rw [inOrder_eq_isLE secondProper thirdProper] at after
    rw [inOrder_eq_isLE firstProper thirdProper]
    exact Std.TransCmp.isLE_trans before after
  · intro left right leftProper rightProper
    rw [inOrder_eq_isLE leftProper rightProper, inOrder_eq_isLE rightProper leftProper,
      @Std.OrientedCmp.eq_swap _ (compareDocuments sort)]
    cases compareDocuments sort right left <;> rfl

/-- What a window keeps stands as it stood. -/
theorem window_sublist (skip limit : Option Nat) (documents : List Document) :
    (window skip limit documents).Sublist documents := by
  simp only [window]
  split
  · exact List.drop_sublist _ _
  · exact List.drop_sublist _ _
  · exact (List.take_sublist _ _).trans (List.drop_sublist _ _)

/-- A scan yields its documents in order, wherever it is cut. -/
theorem pairwise_scan {shelf : Shelf} {sort : SortOrder}
    (proper : ∀ key document, shelf.find? key = some document → Sortable sort document)
    (filter : Filter) {options : ScanOptions} (asked : options.sort = some sort) :
    (shelf.scan filter options).Pairwise fun left right => inOrder sort left right = true := by
  have ordered : (sorted (some sort) (shelf.matching filter).values).Pairwise
      fun left right => inOrder sort left right = true := by
    apply pairwise_sorted
    intro document inside
    obtain ⟨binding, listed, rfl⟩ := List.mem_map.mp inside
    exact proper binding.1 binding.2 ((mem_matching_iff _ _ _ _).mp listed).1
  rw [scan, asked]
  exact ordered.sublist (window_sublist _ _ _)

end Shelf

end DocStore
