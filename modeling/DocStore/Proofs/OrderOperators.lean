import DocStore.Proofs.Alternatives

/-!
# Order operators and equality

To be at least an operand is to be greater than it or to equal it, and to be at most an operand is
to be less than it or to equal it. Filters decide the two sides apart: equality by one comparison of
values, order by another. Main statement: the two sides agree exactly when the operand is of a kind
that has an order, or the field does not equal it. Flags, numbers, times and texts have an order,
and a NaN among the numbers makes no difference, for nothing equals it.

Null, arrays, documents and the kinds that filters take for null have none. A field that equals such
an operand is neither at least nor at most it.
-/

namespace DocStore

/-- Scalars are equal when neither stands before the other, save that nulls are equal without an
order. -/
theorem Scalar.order?_eq_some_eq_iff (left right : Scalar) :
    left.order? right = some .eq ↔ left.equals right = true ∧ right ≠ .null := by
  cases left <;> cases right <;> simp [order?, equals, Double.equals, Int64.toInt_inj]

/-- Nothing is ordered against null. -/
theorem Scalar.order?_null (left : Scalar) : left.order? .null = none := by
  cases left <;> rfl

/-- The kinds that have an order in filters. -/
def orderedKinds : List Kind := [.boolean, .int32, .int64, .double, .dateTime, .string]

namespace Value

variable {operand : Value}

/-- The ordered kinds are those that filters see as a scalar other than null. -/
theorem kind_mem_orderedKinds_iff (operand : Value) :
    operand.kind ∈ orderedKinds ↔
      ∃ scalar, operand.scalar? = some scalar ∧ scalar ≠ .null := by
  cases operand <;> simp [kind, orderedKinds, scalar?]

/-- What shows a scalar is compared as one. -/
theorem alike_of_scalar {scalar : Scalar} (seen : operand.scalar? = some scalar) (value : Value) :
    value.alike operand = value.scalarAlike operand := by
  cases operand with
  | document fields => cases seen
  | array items => cases seen
  | _ => simp only [alike]

/-- Against an operand of an ordered kind a value is equal exactly when it stands neither before nor
behind. -/
theorem order?_eq_some_eq_iff (ordered : operand.kind ∈ orderedKinds) (value : Value) :
    value.order? operand = some .eq ↔ value.alike operand = true := by
  obtain ⟨scalar, seen, proper⟩ := (kind_mem_orderedKinds_iff operand).mp ordered
  rw [alike_of_scalar seen, order?, scalarAlike, seen]
  cases value.scalar? with
  | none => simp
  | some other => simp [Scalar.order?_eq_some_eq_iff, proper]

/-- Nothing is ordered against an operand of any other kind. -/
theorem order?_eq_none (unordered : operand.kind ∉ orderedKinds) (value : Value) :
    value.order? operand = none := by
  rw [kind_mem_orderedKinds_iff] at unordered
  rw [order?]
  cases seen : operand.scalar? with
  | none => cases value.scalar? <;> rfl
  | some scalar =>
      have null : scalar = .null := by
        by_contra proper
        exact unordered ⟨scalar, seen, proper⟩
      cases value.scalar? with
      | none => rfl
      | some other => exact null ▸ other.order?_null

/-- Against an operand of an ordered kind, a test of the order that allows equality is passed where
the test without it is, and by what equals the operand. -/
theorem ordered_eq_or {weak strict : Ordering → Bool}
    (allows : ∀ ordering, weak ordering = (strict ordering || ordering == .eq))
    (ordered : operand.kind ∈ orderedKinds) (value : Value) :
    Value.ordered weak operand value =
      (Value.ordered strict operand value || value.alike operand) := by
  have equal := order?_eq_some_eq_iff ordered value
  have likeness : value.alike operand = (value.order? operand == some .eq) := by
    rw [Bool.eq_iff_iff, ← equal, beq_iff_eq]
  rw [likeness, Value.ordered, Value.ordered]
  cases value.order? operand with
  | none => rfl
  | some ordering => exact allows ordering

/-- Against an operand of any other kind, no test of the order is passed. -/
theorem ordered_eq_false (accepted : Ordering → Bool) (unordered : operand.kind ∉ orderedKinds)
    (value : Value) : Value.ordered accepted operand value = false := by
  rw [Value.ordered, order?_eq_none unordered value]

end Value

/-- A reached value meets one of two tests exactly when one of them is met. -/
theorem any_meets_or (found : List Value) (test other : Value → Bool) :
    (found.any fun value => value.meets fun candidate => test candidate || other candidate) =
      ((found.any fun value => value.meets test) || found.any fun value => value.meets other) := by
  rw [Bool.eq_iff_iff]
  simp only [Value.meets_eq, Bool.or_eq_true, List.any_eq_true]
  constructor
  · rintro ⟨value, reached, candidate, offered, passed | passed⟩
    · exact .inl ⟨value, reached, candidate, offered, passed⟩
    · exact .inr ⟨value, reached, candidate, offered, passed⟩
  · rintro (⟨value, reached, candidate, offered, passed⟩ |
      ⟨value, reached, candidate, offered, passed⟩)
    · exact ⟨value, reached, candidate, offered, .inl passed⟩
    · exact ⟨value, reached, candidate, offered, .inr passed⟩

/-- Among reached values, an order that allows equality is the strict order or equality exactly when
the operand has an order or nothing equals it. Without an order neither test of it is passed, and
only an equality is left. -/
theorem any_ordered_eq_or_iff {weak strict : Ordering → Bool}
    (allows : ∀ ordering, weak ordering = (strict ordering || ordering == .eq)) (operand : Value)
    (found : List Value) :
    ((found.any fun value => value.meets (Value.ordered weak operand)) =
        ((found.any fun value => value.meets (Value.ordered strict operand)) ||
          found.any fun value => value.meets (Value.alike · operand))) ↔
      operand.kind ∈ orderedKinds ∨
        (found.any fun value => value.meets (Value.alike · operand)) = false := by
  by_cases ordered : operand.kind ∈ orderedKinds
  · have split : Value.ordered weak operand = fun value =>
        Value.ordered strict operand value || value.alike operand :=
      funext (Value.ordered_eq_or allows ordered)
    simp only [split, any_meets_or, ordered, true_or]
  · have missed (accepted : Ordering → Bool) :
        (found.any fun value => value.meets (Value.ordered accepted operand)) = false := by
      simp [Value.meets_eq, Value.ordered_eq_false accepted ordered]
    rw [missed weak, missed strict, Bool.false_or, eq_comm]
    simp [ordered]

/-- How the operators that allow equality are made of those that do not, given what is accepted on a
subject. -/
structure InclusiveBounds (accepts : Filter → Bool) (field : String) (operand : Value) :
    Prop where
  atLeast :
    (accepts (.comparison field .gte operand) =
        (accepts (.comparison field .gt operand) || accepts (.comparison field .eq operand))) ↔
      operand.kind ∈ orderedKinds ∨ accepts (.comparison field .eq operand) = false
  atMost :
    (accepts (.comparison field .lte operand) =
        (accepts (.comparison field .lt operand) || accepts (.comparison field .eq operand))) ↔
      operand.kind ∈ orderedKinds ∨ accepts (.comparison field .eq operand) = false

/-- The law is the same whatever a field reaches. -/
theorem inclusiveBounds_of_reached (reached : String → List Value) (field : String)
    (operand : Value) : InclusiveBounds (Filter.accepts reached) field operand where
  atLeast := any_ordered_eq_or_iff (fun ordering => by cases ordering <;> rfl) operand _
  atMost := any_ordered_eq_or_iff (fun ordering => by cases ordering <;> rfl) operand _

/-- At least is greater or equal, and at most is less or equal, on every document and every array
element, exactly when the operand is of a kind that has an order or the field does not equal it.

This holds of every field path and of operands of all kinds. It fails where the field equals an
operand that nothing is ordered against: null or a kind that filters take for null, an array, or a
document. There the equality holds and no order does. -/
theorem bounds_include_equality_iff (field : String) (operand : Value) :
    (∀ document : Document, InclusiveBounds document.matches field operand) ∧
      ∀ element : Value, InclusiveBounds element.matches field operand :=
  ⟨fun _ => inclusiveBounds_of_reached _ field operand,
    fun _ => inclusiveBounds_of_reached _ field operand⟩

/-- A null equals null, and is neither at least nor at most null. -/
theorem null_not_at_least_null :
    let document : Document := [(idField, .string "a"), ("n", .null)]
    let accepts (operator : Operator) : Bool := document.matches (.comparison "n" operator .null)
    accepts .eq = true ∧ accepts .gte = false ∧ accepts .lte = false ∧
      accepts .gte ≠ (accepts .gt || accepts .eq) ∧
      accepts .lte ≠ (accepts .lt || accepts .eq) := by
  decide +kernel

end DocStore
