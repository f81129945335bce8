import DocStore.Proofs.MalformedRecords

/-!
# The comparison behind sorts

A sort compares any two values, missing ones included: by their ranks, and within a rank by the
order of filters, where no answer counts as equality. Main statement: a value is always equal to
itself and the comparison always turns round with its sides, but it is not transitive. It fails in
one case only, when a NaN stands between a number and a lower one. A NaN has no place among the
numbers and so is equal to each of them.

So without a NaN a sort has one result. With one, what is sorted may leave a number before a lower
one.
-/

namespace DocStore

/-- The order of two numbers is descending exactly when both have a place and the second is the
lower. -/
theorem Double.order?_eq_some_gt_iff (left right : Double) :
    left.order? right = some .gt ↔
      ∃ high low, left.position? = some high ∧ right.position? = some low ∧ low < high := by
  rw [order?]
  cases left.position? <;> cases right.position? <;> simp [Int.compare_eq_gt]

namespace Value

/-- The place among the numbers of a value that is a number. -/
def place? (value : Value) : Option Int :=
  match value.scalar? with
  | some (.number number) => number.position?
  | _ => none

/-- Numbers are the values of their rank. -/
theorem rank_eq_one_iff (value : Value) :
    value.rank = 1 ↔ ∃ number, value.scalar? = some (.number number) := by
  rw [rank]
  cases value.scalar? with
  | none => cases value.isDocument <;> simp
  | some scalar => cases scalar <;> simp

/-- What has a place among the numbers is a number. -/
theorem rank_of_place? {value : Value} {place : Int} (placed : value.place? = some place) :
    value.rank = 1 := by
  rw [rank_eq_one_iff]
  rw [place?] at placed
  split at placed
  · rename_i number seen
    exact ⟨number, seen⟩
  · cases placed

/-- A NaN is a number too. -/
theorem IsNaN.rank_eq_one {value : Value} (nan : value.IsNaN) : value.rank = 1 := by
  obtain ⟨number, rfl, -⟩ := nan
  rfl

/-- Nothing is ordered against a NaN, on either side. -/
theorem order?_of_isNaN {left right : Value} (nan : left.IsNaN ∨ right.IsNaN) :
    left.order? right = none := by
  rw [order?]
  obtain ⟨number, rfl, missing⟩ | ⟨number, rfl, missing⟩ := nan
  · cases right.scalar? with
    | none => rfl
    | some other => cases other <;> simp [scalar?, Scalar.order?, Double.order?, missing]
  · cases left.scalar? with
    | none => rfl
    | some other => cases other <;> simp [scalar?, Scalar.order?, Double.order?, missing]

end Value

variable {left right first second third : Option Value}

/-- A NaN is compared by ranks alone. -/
theorem compareForSort_of_isNaN (nan : (left.getD .null).IsNaN ∨ (right.getD .null).IsNaN) :
    compareForSort left right = compare (left.getD .null).rank (right.getD .null).rank := by
  simp [compareForSort, Value.order?_of_isNaN nan]

/-- Numbers are compared by their order, and are equal without one. -/
theorem compareForSort_of_number {number other : Double}
    (leftSeen : (left.getD .null).scalar? = some (.number number))
    (rightSeen : (right.getD .null).scalar? = some (.number other)) :
    compareForSort left right = (number.order? other).getD .eq := by
  simp [compareForSort, Value.rank, Value.order?, Scalar.order?, leftSeen, rightSeen]

/-- The comparison turns round with its sides. -/
instance : Std.OrientedCmp compareForSort where
  eq_swap {left right} := by
    by_cases nan : (left.getD .null).IsNaN ∨ (right.getD .null).IsNaN
    · rw [compareForSort_of_isNaN nan, compareForSort_of_isNaN nan.symm]
      exact Std.OrientedOrd.eq_swap
    · obtain ⟨leftProper, rightProper⟩ := not_or.mp nan
      rw [compareForSort_eq leftProper rightProper, compareForSort_eq rightProper leftProper]
      exact Std.OrientedCmp.eq_swap

/-- The comparison is transitive past a value that is no NaN. If an end is a NaN, the ranks alone
are compared there, and without any NaN keys are. -/
theorem compareForSort_trans (proper : ¬ (second.getD .null).IsNaN)
    (before : compareForSort first second ≠ .gt) (after : compareForSort second third ≠ .gt) :
    compareForSort first third ≠ .gt := by
  by_cases nan : (first.getD .null).IsNaN ∨ (third.getD .null).IsNaN
  · rw [compareForSort_of_isNaN nan, Nat.compare_ne_gt]
    exact Nat.le_trans (rank_le_of_ne_gt before) (rank_le_of_ne_gt after)
  · obtain ⟨firstProper, thirdProper⟩ := not_or.mp nan
    rw [compareForSort_eq firstProper proper] at before
    rw [compareForSort_eq proper thirdProper] at after
    rw [compareForSort_eq firstProper thirdProper]
    exact Ordering.isLE_iff_ne_gt.mp (Std.TransCmp.isLE_trans
      (Ordering.isLE_iff_ne_gt.mpr before) (Ordering.isLE_iff_ne_gt.mpr after))

/-- A NaN stands between a number and a lower one. -/
def NaNBetween (first second third : Option Value) : Prop :=
  (second.getD .null).IsNaN ∧ ∃ high low, (first.getD .null).place? = some high ∧
    (third.getD .null).place? = some low ∧ low < high

/-- Numbers are in descending order exactly when both have a place and the second is the lower. -/
theorem compareForSort_eq_gt_iff (leftRank : (left.getD .null).rank = 1)
    (rightRank : (right.getD .null).rank = 1) :
    compareForSort left right = .gt ↔ ∃ high low, (left.getD .null).place? = some high ∧
      (right.getD .null).place? = some low ∧ low < high := by
  obtain ⟨number, leftSeen⟩ := (Value.rank_eq_one_iff _).mp leftRank
  obtain ⟨other, rightSeen⟩ := (Value.rank_eq_one_iff _).mp rightRank
  have answered : compareForSort left right = .gt ↔ number.order? other = some .gt := by
    rw [compareForSort_of_number leftSeen rightSeen]
    cases number.order? other <;> simp
  simp only [answered, Double.order?_eq_some_gt_iff, Value.place?, leftSeen, rightSeen]

/-- The comparison fails to be transitive past a NaN exactly when a number stands before it and a
lower one behind. What a NaN is not behind has no greater rank, and what is not before a NaN no
lower one; so the ends can only be out of order if both are numbers. -/
theorem intransitive_iff_of_isNaN (nan : (second.getD .null).IsNaN) :
    (compareForSort first second ≠ .gt ∧ compareForSort second third ≠ .gt ∧
        compareForSort first third = .gt) ↔
      ∃ high low, (first.getD .null).place? = some high ∧
        (third.getD .null).place? = some low ∧ low < high := by
  have middle := nan.rank_eq_one
  constructor
  · rintro ⟨before, after, behind⟩
    have firstRank := rank_le_of_ne_gt before
    have thirdRank := rank_le_of_ne_gt after
    have ends : (third.getD .null).rank ≤ (first.getD .null).rank :=
      rank_le_of_ne_lt (by rw [behind]; decide)
    exact (compareForSort_eq_gt_iff (by omega) (by omega)).mp behind
  · rintro ⟨high, low, firstPlaced, thirdPlaced, below⟩
    have firstRank := Value.rank_of_place? firstPlaced
    have thirdRank := Value.rank_of_place? thirdPlaced
    refine ⟨?_, ?_, (compareForSort_eq_gt_iff firstRank thirdRank).mpr
      ⟨high, low, firstPlaced, thirdPlaced, below⟩⟩
    · rw [compareForSort_of_isNaN (.inr nan), Nat.compare_ne_gt]
      omega
    · rw [compareForSort_of_isNaN (.inl nan), Nat.compare_ne_gt]
      omega

/-- How far the comparison of sorts is a total preorder.

For all values, missing ones and every kind and every double included: a value is equal to itself,
and the comparison turns round with its sides, so any two values are in order one way or the other.
It is transitive past a value exactly as long as that is no NaN between a number and a lower one. -/
theorem sort_comparison_laws (first second third : Option Value) :
    compareForSort first first = .eq ∧
      compareForSort second first = (compareForSort first second).swap ∧
      ((compareForSort first second ≠ .gt → compareForSort second third ≠ .gt →
          compareForSort first third ≠ .gt) ↔
        ¬ NaNBetween first second third) := by
  refine ⟨Std.ReflCmp.compare_self, Std.OrientedCmp.eq_swap, ?_⟩
  constructor
  · rintro transitive ⟨nan, between⟩
    obtain ⟨before, after, behind⟩ := (intransitive_iff_of_isNaN nan).mpr between
    exact transitive before after behind
  · intro apart before after behind
    by_cases nan : (second.getD .null).IsNaN
    · exact apart ⟨nan, (intransitive_iff_of_isNaN nan).mp ⟨before, after, behind⟩⟩
    · exact compareForSort_trans nan before after behind

/-- A sort of four leaves them in their order without comparing the first with the last. -/
theorem mergeSort_of_four {α : Type} {le : α → α → Bool} {first second third fourth : α}
    (low : le first second) (high : le third fourth) (far : le first third)
    (near : le second third) :
    [first, second, third, fourth].mergeSort le = [first, second, third, fourth] := by
  have left : [first, second].mergeSort le = [first, second] :=
    List.mergeSort_of_pairwise (List.pairwise_pair.mpr low)
  have right : [third, fourth].mergeSort le = [third, fourth] :=
    List.mergeSort_of_pairwise (List.pairwise_pair.mpr high)
  rw [List.mergeSort]
  simp [left, right, List.cons_merge_cons_pos, far, near]

/-- Two is not behind a NaN, and a NaN is not behind one, but two is behind one. A sort of two, two
NaNs and one finds nothing out of order and leaves them. -/
theorem sort_intransitive_past_nan :
    let nan : Value := .double ⟨0x7ff8000000000000⟩
    let documents : List Document := [
      [(idField, .string "a"), ("n", .int32 2)], [(idField, .string "b"), ("n", nan)],
      [(idField, .string "c"), ("n", nan)], [(idField, .string "d"), ("n", .int32 1)]]
    compareForSort (some (.int32 2)) (some nan) ≠ .gt ∧
      compareForSort (some nan) (some (.int32 1)) ≠ .gt ∧
      compareForSort (some (.int32 2)) (some (.int32 1)) = .gt ∧
      Shelf.sorted (some ⟨"n", .ascending⟩) documents = documents := by
  intro nan documents
  have kept : Shelf.sorted (some ⟨"n", .ascending⟩) documents = documents :=
    mergeSort_of_four rfl rfl rfl rfl
  exact ⟨by decide +kernel, by decide +kernel, by decide +kernel, kept⟩

end DocStore
