import DocStore.Proofs.DoubleValues
import DocStore.Proofs.OrderOperators
import Mathlib.Logic.Relation

/-!
# Filter equality as an equivalence

Filter equality is symmetric and transitive, and a value equals itself unless a NaN is in it. Main
statement: besides these laws, the equality does not change when the data of a value are put down
differently, at any depth and any number of times. The fields of a document may be reordered, and an
integer may be put down in more bytes or as a double.

One such change is a step, and a step goes into arrays and documents. What is compared with the
value before and after a step finds no difference, whatever it is.
-/

namespace DocStore

/-- Equality of numbers is transitive. -/
theorem Double.equals_trans {first second third : Double} (before : first.equals second = true)
    (after : second.equals third = true) : first.equals third = true := by
  rw [equals_iff] at before after ⊢
  exact ⟨before.1, before.2.trans after.2⟩

/-- Equality of scalars is transitive. -/
theorem Scalar.equals_trans {first second third : Scalar} (before : first.equals second = true)
    (after : second.equals third = true) : first.equals third = true := by
  cases first <;> cases second <;> simp only [equals, beq_iff_eq, Bool.false_eq_true] at before
  case null.null => exact after
  case boolean.boolean => exact before ▸ after
  case number.number =>
    cases third with
    | number last => exact Double.equals_trans before after
    | _ => cases after
  case dateTime.dateTime => exact before ▸ after
  case string.string => exact before ▸ after

namespace Value

/-- Equality as scalars is equality of the scalars that both values show. -/
theorem scalarAlike_iff {left right : Value} :
    left.scalarAlike right = true ↔ ∃ scalar other, left.scalar? = some scalar ∧
      right.scalar? = some other ∧ scalar.equals other = true := by
  rw [scalarAlike]
  cases left.scalar? <;> cases right.scalar? <;> simp

/-- What shows a scalar is compared as one, also with arrays and documents. -/
theorem alike_of_scalar_left {value : Value} {scalar : Scalar} (seen : value.scalar? = some scalar)
    (other : Value) : value.alike other = value.scalarAlike other := by
  cases value with
  | document fields => cases seen
  | array items => cases seen
  | _ => simp only [alike]

/-- What equals a value as a scalar equals all that the value equals. -/
theorem scalarAlike_trans {first second third : Value} (before : first.scalarAlike second = true)
    (after : second.alike third = true) : first.scalarAlike third = true := by
  obtain ⟨scalar, middle, firstSeen, secondSeen, likeness⟩ := scalarAlike_iff.mp before
  rw [alike_of_scalar_left secondSeen] at after
  obtain ⟨same, last, seen, thirdSeen, further⟩ := scalarAlike_iff.mp after
  cases secondSeen.symm.trans seen
  have ends := Scalar.equals_trans likeness further
  exact scalarAlike_iff.mpr ⟨scalar, last, firstSeen, thirdSeen, ends⟩

end Value

mutual

/-- Filter equality is transitive. The induction goes into arrays and documents; all other kinds are
compared as scalars. -/
theorem Value.alike_trans {first second third : Value} (before : first.alike second = true)
    (after : second.alike third = true) : first.alike third = true := by
  cases first with
  | document fields =>
      cases second with
      | document others =>
          cases third with
          | document lasts =>
              rw [Value.alike, Bool.and_eq_true, beq_iff_eq, fieldsAlike_iff] at before after ⊢
              refine ⟨before.1.trans after.1, fun field inside => ?_⟩
              obtain ⟨other, present, likeness⟩ := before.2 field inside
              obtain ⟨last, found, further⟩ := after.2 _ (Document.mem_of_field? present)
              exact ⟨last, found, fields_alike_trans field inside other last likeness further⟩
          | _ => cases after
      | _ => cases before
  | array items =>
      cases second with
      | array others =>
          cases third with
          | array lasts =>
              rw [Value.alike] at before after ⊢
              exact itemsAlike_trans before after
          | _ => cases after
      | _ => cases before
  | _ =>
      simp only [Value.alike] at before ⊢
      exact Value.scalarAlike_trans before after

/-- The same for the elements of arrays. -/
theorem itemsAlike_trans {items others lasts : List Value} (before : itemsAlike items others = true)
    (after : itemsAlike others lasts = true) : itemsAlike items lasts = true := by
  cases items with
  | nil =>
      cases others with
      | nil => exact after
      | cons other others => cases before
  | cons item items =>
      cases others with
      | nil => cases before
      | cons other others =>
          cases lasts with
          | nil => cases after
          | cons last lasts =>
              rw [itemsAlike, Bool.and_eq_true] at before after ⊢
              exact ⟨Value.alike_trans before.1 after.1, itemsAlike_trans before.2 after.2⟩

/-- The same for the value of each field of a document. -/
theorem fields_alike_trans {fields : List (String × Value)} :
    ∀ field ∈ fields, ∀ other last : Value, field.2.alike other = true →
      other.alike last = true → field.2.alike last = true := by
  cases fields with
  | nil => simp
  | cons field fields =>
      obtain ⟨name, value⟩ := field
      rw [List.forall_mem_cons]
      exact ⟨fun other last => Value.alike_trans, fields_alike_trans⟩

end

/-- One change in how the data of a value are put down, at any depth. An integer of the narrow width
takes the other width or becomes a double of the same number, or the fields of a document take
another order. The scope of a code is a document too, though filters do not look into it. -/
inductive Value.Recast : Value → Value → Prop
  | wide {number : Int32} {other : Int64} (same : other.toInt = number.toInt) :
      Recast (.int32 number) (.int64 other)
  | double {number : Int32} {other : Double} (same : other.value? = some (number.toInt : ℚ)) :
      Recast (.int32 number) (.double other)
  | reordered {fields others : Document} (permuted : fields.Perm others) :
      Recast (.document fields) (.document others)
  | field {before after : Document} {name : String} {value other : Value}
      (inside : Recast value other) :
      Recast (.document (before ++ (name, value) :: after))
        (.document (before ++ (name, other) :: after))
  | item {before after : List Value} {value other : Value} (inside : Recast value other) :
      Recast (.array (before ++ value :: after)) (.array (before ++ other :: after))
  | scope {source : String} {fields others : Document}
      (inside : Recast (.document fields) (.document others)) :
      Recast (.javaScriptCodeWithScope source fields) (.javaScriptCodeWithScope source others)

namespace Value

/-- Numbers in one place are equal to the same values. -/
theorem alike_congr_of_position? {value other : Value} {number own : Double}
    (valueSeen : value.scalar? = some (.number number))
    (otherSeen : other.scalar? = some (.number own)) (same : number.position? = own.position?)
    (operand : Value) : value.alike operand = other.alike operand := by
  rw [alike_of_scalar_left valueSeen, alike_of_scalar_left otherSeen, scalarAlike, scalarAlike,
    valueSeen, otherSeen]
  cases operand.scalar? with
  | none => rfl
  | some scalar => cases scalar <;> simp only [Scalar.equals, Double.equals, Double.order?, same]

/-- Elements that are equal to the same values make arrays that are. The induction is on the
elements in front. -/
theorem itemsAlike_congr {value other : Value}
    (same : ∀ operand, value.alike operand = other.alike operand) (before after : List Value)
    (operands : List Value) :
    itemsAlike (before ++ value :: after) operands =
      itemsAlike (before ++ other :: after) operands := by
  induction before generalizing operands with
  | nil =>
      cases operands with
      | nil => rfl
      | cons operand operands => simp only [List.nil_append, itemsAlike, same]
  | cons item before ih =>
      cases operands with
      | nil => rfl
      | cons operand operands => simp only [List.cons_append, itemsAlike, ih]

/-- A double of the same number stands in the same place as the integer. -/
theorem position?_of_same {number : Int32} {other : Double}
    (same : other.value? = some (number.toInt : ℚ)) :
    (Double.ofInt number.toInt).position? = other.position? := by
  have low := number.le_toInt
  have high := number.toInt_lt
  exact Double.position?_eq_of_value? (Double.value?_ofInt (by omega)) same

/-- A value is equal to the same values before and after a change. There is one case for each kind
of change; those inside an array or a document rest on the change there. -/
theorem Recast.alike_congr {value other : Value} (changed : Recast value other) (operand : Value) :
    value.alike operand = other.alike operand := by
  induction changed generalizing operand with
  | wide same => exact alike_congr_of_position? rfl rfl (by rw [same]) operand
  | double same => exact alike_congr_of_position? rfl rfl (position?_of_same same) operand
  | reordered permuted =>
      cases operand with
      | document operands =>
          rw [Bool.eq_iff_iff]
          simp only [alike, Bool.and_eq_true, fieldsAlike_iff, permuted.length_eq,
            permuted.mem_iff]
      | _ => rfl
  | field inside ih =>
      cases operand with
      | document operands =>
          rw [Bool.eq_iff_iff]
          simp only [alike, Bool.and_eq_true, fieldsAlike_iff, List.length_append,
            List.length_cons, List.forall_mem_append, List.forall_mem_cons, ih]
      | _ => rfl
  | item inside ih =>
      cases operand with
      | array operands => exact itemsAlike_congr ih _ _ operands
      | _ => rfl
  | scope inside ih => cases operand <;> rfl

/-- A change keeps values well-formed. -/
theorem Recast.wellFormed {value other : Value} (changed : Recast value other)
    (formed : value.WellFormed) : other.WellFormed := by
  induction changed with
  | wide same => trivial
  | double same => trivial
  | reordered permuted =>
      rw [WellFormed, fieldsWellFormed_iff] at formed ⊢
      refine ⟨(permuted.map _).nodup_iff.mp formed.1, fun field listed => ?_⟩
      exact formed.2 field (permuted.mem_iff.mpr listed)
  | field inside ih =>
      rw [WellFormed, fieldsWellFormed_iff] at formed ⊢
      simp only [Document.names, List.map_append, List.map_cons, List.forall_mem_append,
        List.forall_mem_cons] at formed ⊢
      exact ⟨formed.1, formed.2.1, ih formed.2.2.1, formed.2.2.2⟩
  | item inside ih =>
      simp only [wellFormed_array, List.forall_mem_append, List.forall_mem_cons] at formed ⊢
      exact ⟨formed.1, ih formed.2.1, formed.2.2⟩
  | scope inside ih =>
      simp only [WellFormed] at formed ih ⊢
      exact ih formed

variable {first second other another : Value}

/-- A value is equal to the same values before and after any number of changes. -/
theorem alike_congr_of_recasts (changed : Relation.ReflTransGen Recast first other)
    (operand : Value) : first.alike operand = other.alike operand := by
  induction changed with
  | refl => rfl
  | tail _ last ih => exact ih.trans (last.alike_congr operand)

/-- Any number of changes keeps values well-formed. -/
theorem wellFormed_of_recasts (changed : Relation.ReflTransGen Recast first other)
    (formed : first.WellFormed) : other.WellFormed := by
  induction changed with
  | refl => exact formed
  | tail _ last ih => exact last.wellFormed ih

/-- Filter equality is a partial equivalence that does not depend on how data are put down.

For all values of any nesting that name their fields once: the equality is symmetric and transitive,
and a value equals itself exactly when no NaN is reached in it through arrays and documents. What
two values compare to stays the same when in either of them, any number of times and at any depth,
the fields of a document are reordered or a narrow integer becomes a wide one or a double of the
same number. -/
theorem filter_equality_laws (firstFormed : first.WellFormed) (secondFormed : second.WellFormed) :
    first.alike second = second.alike first ∧
      (∀ third, first.alike second = true → second.alike third = true →
        first.alike third = true) ∧
      (first.alike first = true ↔ first.NaNFree) ∧
      ∀ other another, Relation.ReflTransGen Recast first other →
        Relation.ReflTransGen Recast second another →
          other.alike another = first.alike second := by
  refine ⟨alike_comm firstFormed secondFormed, fun _ => alike_trans,
    alike_self_iff firstFormed, ?_⟩
  intro other another changed changedToo
  have anotherFormed := wellFormed_of_recasts changedToo secondFormed
  calc other.alike another
      = first.alike another := (alike_congr_of_recasts changed another).symm
    _ = another.alike first := alike_comm firstFormed anotherFormed
    _ = second.alike first := (alike_congr_of_recasts changedToo first).symm
    _ = first.alike second := alike_comm secondFormed firstFormed

/-- The fields of a document change places, an element of an array inside becomes a wide integer and
a zero the negative zero. Other kinds that filters take for null are equal to null. The NaN is in
the scope of a code, which is not gone into. -/
theorem filter_equality_laws_of_recast :
    let first : Value := .document [("a", .int32 0), ("b", .array [.int32 (-7), .null])]
    let second : Value := .document [("b", .array [.int64 (-7), .minKey]), ("a", .int64 0)]
    let third : Value := .document [("a", .double ⟨0⟩), ("b", .array [.int32 (-7), .undefined])]
    let other : Value :=
      .document [("b", .array [.int64 (-7), .null]), ("a", .double ⟨0x8000000000000000⟩)]
    let coded : Value :=
      .array [.javaScriptCodeWithScope "f" [("x", .double ⟨0x7ff8000000000000⟩)]]
    first.alike second = second.alike first ∧ first.alike third = true ∧
      other.alike second = first.alike second ∧ coded.alike coded = true := by
  intro first second third other coded
  have firstFormed : first.WellFormed := by
    simp [first, Document.names, fieldsWellFormed, itemsWellFormed, WellFormed]
  have secondFormed : second.WellFormed := by
    simp [second, Document.names, fieldsWellFormed, itemsWellFormed, WellFormed]
  have codedFormed : coded.WellFormed := by
    simp [coded, Document.names, fieldsWellFormed, itemsWellFormed, WellFormed]
  have free : coded.NaNFree := by
    simp [coded, NaNFree, itemsNaNFree, IsNaN]
  have zero : (⟨0x8000000000000000⟩ : Double).value? = some ((0 : Int32).toInt : ℚ) := by
    decide +kernel
  have moved : Recast first (.document [("b", .array [.int32 (-7), .null]), ("a", .int32 0)]) :=
    .reordered (.swap _ _ [])
  have widened : Recast (.document [("b", .array [.int32 (-7), .null]), ("a", .int32 0)])
      (.document [("b", .array [.int64 (-7), .null]), ("a", .int32 0)]) :=
    @Recast.field [] _ "b" _ _ (@Recast.item [] _ _ _ (.wide (by decide)))
  have negated : Recast (.document [("b", .array [.int64 (-7), .null]), ("a", .int32 0)]) other :=
    @Recast.field [("b", .array [.int64 (-7), .null])] [] "a" _ _ (.double zero)
  have changed : Relation.ReflTransGen Recast first other :=
    .tail (.tail (.single moved) widened) negated
  obtain ⟨symmetric, transitive, -, recast⟩ := filter_equality_laws firstFormed secondFormed
  obtain ⟨-, -, itself, -⟩ := filter_equality_laws codedFormed firstFormed
  exact ⟨symmetric, transitive third (by decide +kernel) (by decide +kernel),
    recast other second changed .refl, itself.mpr free⟩

end Value

end DocStore
