import DocStore.Proofs.DoubleValues
import DocStore.Proofs.OrderOperators
import DocStore.Proofs.SortComparison
import DocStore.Typed

/-!
# The order of integers

Sorts and filters see an integer of either width as the double nearest to it, and far from zero many
integers have the same nearest double. Main statement: two integers may become equal this way but
never change places, and up to a size of two to the power of 53 they do not even become equal, so
that all comparisons are those of the integers.

That no two change places holds because rounding keeps the order of patterns. That none become equal
holds because no integer up to the bound is rounded at all.
-/

namespace DocStore

namespace Double

/-- The place of the double that an integer is rounded to. -/
theorem position?_ofInt_eq {number : Int} (small : number.natAbs < 18446744073709551616) :
    (ofInt number).position? = some (signed patternOfNat number) := by
  obtain ⟨size, sign⟩ := parts_ofInt small
  rw [position?, size, sign, if_neg (Nat.lt_asymm (patternOfNat_lt small)), signed_eq rfl]
  simp only [decide_eq_true_eq]

/-- Rounding never puts an integer behind one that it does not exceed. -/
theorem order?_ofInt_of_le {number other : Int} (small : number.natAbs < 18446744073709551616)
    (otherSmall : other.natAbs < 18446744073709551616) (ordered : number ≤ other) :
    ∃ ordering, (ofInt number).order? (ofInt other) = some ordering ∧ ordering ≠ .gt := by
  have places := signed_le rfl (fun _ _ => patternOfNat_mono) ordered
  refine ⟨compare (signed patternOfNat number) (signed patternOfNat other), ?_, ?_⟩
  · rw [order?, position?_ofInt_eq small, position?_ofInt_eq otherSmall]
  · rw [Ne, Int.compare_eq_gt]
    omega

/-- Integers whose size is at most two to the power of 53 are compared exactly. -/
theorem order?_ofInt {number other : Int} (small : number.natAbs ≤ 9007199254740992)
    (otherSmall : other.natAbs ≤ 9007199254740992) :
    (ofInt number).order? (ofInt other) = some (compare number other) := by
  have same := (Int.cast_strictMono (R := ℚ)).cmp_map_eq number other
  rw [cmp_eq_compare, cmp_eq_compare] at same
  rw [order?_eq_compare (value?_ofInt small) (value?_ofInt otherSmall), same]

end Double

namespace Value

variable {value operand : Value} {number other : Int}

/-- An integer of either width fits in a signed word. -/
theorem natAbs_le_of_integer? (whole : value.integer? = some number) :
    number.natAbs ≤ 9223372036854775808 := by
  cases value with
  | int32 own =>
      cases whole
      have low := own.le_toInt
      have high := own.toInt_lt
      omega
  | int64 own =>
      cases whole
      have low := own.le_toInt
      have high := own.toInt_lt
      omega
  | _ => cases whole

/-- Filters see the double that an integer is rounded to. -/
theorem scalar?_of_integer? (whole : value.integer? = some number) :
    value.scalar? = some (.number (Double.ofInt number)) := by
  cases value with
  | int32 own | int64 own =>
      cases whole
      rfl
  | _ => cases whole

/-- Integers are ordered as the doubles that they are rounded to. -/
theorem order?_of_integer? (whole : value.integer? = some number)
    (otherWhole : operand.integer? = some other) :
    value.order? operand = (Double.ofInt number).order? (Double.ofInt other) := by
  rw [order?, scalar?_of_integer? whole, scalar?_of_integer? otherWhole]
  rfl

/-- What is no array meets the tests that it passes. -/
theorem meets_of_integer? (whole : value.integer? = some number) (test : Value → Bool) :
    value.meets test = test value := by
  cases value with
  | array items => cases whole
  | _ => simp [meets]

end Value

/-- A subject of filters, given by the filters that it accepts, in which a field reaches one value
and no other. It is a document, or an array element by itself. -/
inductive HeldIn : (Filter → Bool) → String → Value → Prop
  | document {document : Document} {field : String} {value : Value}
      (reached : Document.reach document (route field) = [value]) :
      HeldIn document.matches field value
  | element {element : Value} {field : String} {value : Value}
      (reached : element.reach (route field) = [value]) :
      HeldIn element.matches field value

/-- A comparison with the field looks at the one value. -/
theorem HeldIn.accepts_comparison {accepts : Filter → Bool} {field : String} {value : Value}
    (held : HeldIn accepts field value) (operator : Operator) (operand : Value) :
    accepts (.comparison field operator operand) = operator.accepts operand [value] := by
  cases held with
  | document reached => rw [Document.matches, Filter.accepts, reached]
  | element reached => rw [Value.matches, Filter.accepts, reached]

/-- The operators that compare answer as the order of two integers does. -/
structure ComparesIntegers (accepts : Operator → Bool) (held operand : Int) : Prop where
  eq : accepts .eq = decide (held = operand)
  ne : accepts .ne = decide (held ≠ operand)
  gt : accepts .gt = decide (held > operand)
  gte : accepts .gte = decide (held ≥ operand)
  lt : accepts .lt = decide (held < operand)
  lte : accepts .lte = decide (held ≤ operand)

variable {left right : Value} {number other : Int}

/-- It is enough that the values themselves are in the order of the integers. -/
theorem comparesIntegers_of_order (leftWhole : left.integer? = some number)
    (rightWhole : right.integer? = some other)
    (order : left.order? right = some (compare number other)) :
    ComparesIntegers (fun operator => operator.accepts right [left]) number other := by
  have ordered : right.kind ∈ orderedKinds :=
    (Value.kind_mem_orderedKinds_iff right).mpr
      ⟨_, Value.scalar?_of_integer? rightWhole, by simp⟩
  have likeness : left.alike right = decide (number = other) := by
    rw [Bool.eq_iff_iff, ← Value.order?_eq_some_eq_iff ordered, order]
    simp
  have single (test : Value → Bool) : [left].any (·.meets test) = test left := by
    simp [Value.meets_of_integer? leftWhole]
  exact {
    eq := by simp only [Operator.accepts, single, likeness]
    ne := by simp only [Operator.accepts, single, likeness, decide_not]
    gt := by
      rw [Operator.accepts, single, Value.ordered, order, Bool.eq_iff_iff]
      simp [Int.compare_eq_gt]
    gte := by
      rw [Operator.accepts, single, Value.ordered, order, Bool.eq_iff_iff]
      simp [Int.compare_ne_lt]
    lt := by
      rw [Operator.accepts, single, Value.ordered, order, Bool.eq_iff_iff]
      simp [Int.compare_eq_lt]
    lte := by
      rw [Operator.accepts, single, Value.ordered, order, Bool.eq_iff_iff]
      simp [Int.compare_ne_gt] }

/-- Sorts compare integers in the order of the doubles that they are rounded to. -/
theorem compareForSort_of_integer? {ordering : Ordering} (leftWhole : left.integer? = some number)
    (rightWhole : right.integer? = some other)
    (order : (Double.ofInt number).order? (Double.ofInt other) = some ordering) :
    compareForSort (some left) (some right) = ordering := by
  have leftSeen : ((some left).getD .null).scalar? = some (.number (Double.ofInt number)) :=
    Value.scalar?_of_integer? leftWhole
  have rightSeen : ((some right).getD .null).scalar? = some (.number (Double.ofInt other)) :=
    Value.scalar?_of_integer? rightWhole
  rw [compareForSort_of_number leftSeen rightSeen, order]
  rfl

/-- Comparing integers never inverts their order, and is exact up to two to the power of 53.

For all integers of either width, the first not greater than the second: a sort does not put the
first behind, and the filter for values greater than the second does not accept a document or an
array element with the first in the field. If the size of neither exceeds two to the power of 53,
sorts and all comparing operators answer as the order of the integers does. -/
theorem integers_keep_order (leftWhole : left.integer? = some number)
    (rightWhole : right.integer? = some other) :
    (number ≤ other →
      compareForSort (some left) (some right) ≠ .gt ∧
        ∀ accepts field, HeldIn accepts field left →
          accepts (.comparison field .gt right) = false) ∧
      (number.natAbs ≤ 9007199254740992 → other.natAbs ≤ 9007199254740992 →
        compareForSort (some left) (some right) = compare number other ∧
          ∀ accepts field, HeldIn accepts field left →
            ComparesIntegers (fun operator => accepts (.comparison field operator right))
              number other) := by
  have word := Value.natAbs_le_of_integer? leftWhole
  have otherWord := Value.natAbs_le_of_integer? rightWhole
  have seen := Value.order?_of_integer? leftWhole rightWhole
  constructor
  · intro ordered
    obtain ⟨ordering, order, forward⟩ :=
      Double.order?_ofInt_of_le (by omega) (by omega) ordered
    rw [order] at seen
    rw [compareForSort_of_integer? leftWhole rightWhole order]
    refine ⟨forward, fun accepts field held => ?_⟩
    rw [held.accepts_comparison, Operator.accepts]
    simp [Value.meets_of_integer? leftWhole, Value.ordered, seen, forward]
  · intro small otherSmall
    have order := Double.order?_ofInt small otherSmall
    rw [order] at seen
    refine ⟨compareForSort_of_integer? leftWhole rightWhole order, fun accepts field held => ?_⟩
    simp only [held.accepts_comparison]
    exact comparesIntegers_of_order leftWhole rightWhole seen

/-- Two odd integers beyond the bound are ties, rounded to the even significands on either side. The
bound itself and a negative integer of the other width are compared exactly, at a path into an array
and in an element by itself. -/
theorem integers_keep_order_of_ties :
    let document : Document := [("n", .document [("k", .int64 9007199254740993)]),
      ("rows", .array [.document [("k", .int64 9007199254740992)]])]
    compareForSort (some (.int64 9007199254740993)) (some (.int64 9007199254740995)) ≠ .gt ∧
      document.matches (.comparison "n.k" .gt (.int64 9007199254740995)) = false ∧
      compareForSort (some (.int64 9007199254740992)) (some (.int32 (-7))) =
        compare (9007199254740992 : Int) (-7) ∧
      document.matches (.comparison "rows.k" .gte (.int32 (-7))) =
        decide ((9007199254740992 : Int) ≥ -7) ∧
      (Value.int32 (-7)).matches (.comparison "" .ne (.int64 9007199254740992)) =
        decide ((-7 : Int) ≠ 9007199254740992) := by
  intro document
  have tie : (Value.int64 9007199254740993).integer? = some 9007199254740993 := by decide +kernel
  have next : (Value.int64 9007199254740995).integer? = some 9007199254740995 := by decide +kernel
  have bound : (Value.int64 9007199254740992).integer? = some 9007199254740992 := by decide +kernel
  have negative : (Value.int32 (-7)).integer? = some (-7) := by decide +kernel
  have nested : HeldIn document.matches "n.k" (.int64 9007199254740993) := .document rfl
  have across : HeldIn document.matches "rows.k" (.int64 9007199254740992) := .document rfl
  have itself : HeldIn (Value.int32 (-7)).matches "" (.int32 (-7)) := .element rfl
  obtain ⟨forward, notGreater⟩ := (integers_keep_order tie next).1 (by decide)
  obtain ⟨sorted, compared⟩ := (integers_keep_order bound negative).2 (by decide) (by decide)
  obtain ⟨-, alone⟩ := (integers_keep_order negative bound).2 (by decide) (by decide)
  exact ⟨forward, notGreater _ _ nested, sorted, (compared _ _ across).gte,
    (alone _ _ itself).ne⟩

/-- The bound is sharp: the integer behind it is already taken for it. -/
example :
    compareForSort (some (.int64 9007199254740993)) (some (.int64 9007199254740992)) = .eq := by
  decide +kernel

end DocStore
