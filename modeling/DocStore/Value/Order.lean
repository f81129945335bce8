import DocStore.Value

/-!
# Comparing values

Three comparisons live here.

* `Value.alike` is the equality of filters. It looks through the width of a number, ignores the
  order of fields, and takes every kind it does not know for null.
* `Value.order?` is the order of filters. It is partial: only two booleans, two numbers, two
  times or two strings are ordered.
* `compareForSort` is the order of sorts. It ranks the kinds first and falls back to equality
  where `order?` has no answer.

`Value.identical` is the strict equality of stored data: kind and content must agree.
-/

namespace DocStore

/-- What a filter sees of a value that is neither an array nor a document. -/
inductive Scalar where
  | null
  | boolean (flag : Bool)
  | number (number : Double)
  | dateTime (millis : Int64)
  | string (text : String)

/-- Equality of scalars of the same kind; a NaN equals nothing. -/
def Scalar.equals : Scalar → Scalar → Bool
  | .null, .null => true
  | .boolean left, .boolean right => left == right
  | .number left, .number right => left.equals right
  | .dateTime left, .dateTime right => left == right
  | .string left, .string right => left == right
  | _, _ => false

/-- The order of two scalars of the same kind. Nulls are equal but not ordered. -/
def Scalar.order? : Scalar → Scalar → Option Ordering
  | .boolean left, .boolean right => some (compare left right)
  | .number left, .number right => left.order? right
  | .dateTime left, .dateTime right => some (compare left.toInt right.toInt)
  | .string left, .string right => some (compare left right)
  | _, _ => none

/-- The scalar that a filter sees in a value. Numbers of every width become doubles, and a kind
that filters do not know becomes null. -/
def Value.scalar? : Value → Option Scalar
  | .document _ => none
  | .array _ => none
  | .boolean flag => some (.boolean flag)
  | .int32 number => some (.number (Double.ofInt number.toInt))
  | .int64 number => some (.number (Double.ofInt number.toInt))
  | .double number => some (.number number)
  | .dateTime millis => some (.dateTime millis)
  | .string text => some (.string text)
  | _ => some .null

/-- Equality of what two values show as scalars; an array or a document shows none. -/
def Value.scalarAlike (left right : Value) : Bool :=
  match left.scalar?, right.scalar? with
  | some leftScalar, some rightScalar => leftScalar.equals rightScalar
  | _, _ => false

mutual

/-- Filter equality: arrays element by element, documents as maps from names to values, everything
else as scalars. -/
def Value.alike : Value → Value → Bool
  | .array left, .array right => itemsAlike left right
  | .document left, .document right => left.length == right.length && fieldsAlike left right
  | left, right => left.scalarAlike right

/-- Filter equality of two lists of elements. -/
def itemsAlike : List Value → List Value → Bool
  | [], [] => true
  | left :: lefts, right :: rights => left.alike right && itemsAlike lefts rights
  | _, _ => false

/-- True exactly when every field on the left has a field of its name and value on the right. -/
def fieldsAlike : List (String × Value) → List (String × Value) → Bool
  | [], _ => true
  | (name, value) :: fields, others =>
      (match Document.field? others name with
        | some other => value.alike other
        | none => false) && fieldsAlike fields others

end

/-- Filter order. Arrays and documents are unordered. -/
def Value.order? (left right : Value) : Option Ordering :=
  match left.scalar?, right.scalar? with
  | some leftScalar, some rightScalar => leftScalar.order? rightScalar
  | _, _ => none

/-- The place of a value's kind in the order of sorts. -/
def Value.rank (value : Value) : Nat :=
  match value.scalar? with
  | some .null => 0
  | some (.number _) => 1
  | some (.string _) => 2
  | some (.boolean _) => 5
  | some (.dateTime _) => 6
  | none => if value.isDocument then 3 else 4

/-- The order of sorts. A missing value counts as null; the kinds are ranked first, and values of
one rank without an order of their own are equal. -/
def compareForSort (left right : Option Value) : Ordering :=
  let leftValue := left.getD .null
  let rightValue := right.getD .null
  (compare leftValue.rank rightValue.rank).then
    ((leftValue.order? rightValue).getD .eq)

mutual

/-- Strict equality: the same kind and the same content. Doubles are compared as numbers and
documents without regard to the order of their fields. -/
def Value.identical : Value → Value → Bool
  | .double left, .double right => left.equals right
  | .string left, .string right => left == right
  | .document left, .document right => left.length == right.length && fieldsIdentical left right
  | .array left, .array right => itemsIdentical left right
  | .binary leftType left, .binary rightType right => leftType == rightType && left == right
  | .undefined, .undefined => true
  | .objectId left, .objectId right => left == right
  | .boolean left, .boolean right => left == right
  | .dateTime left, .dateTime right => left == right
  | .null, .null => true
  | .regularExpression left leftOptions, .regularExpression right rightOptions =>
      left == right && leftOptions == rightOptions
  | .dbPointer left leftBytes, .dbPointer right rightBytes =>
      left == right && leftBytes == rightBytes
  | .javaScriptCode left, .javaScriptCode right => left == right
  | .symbol left, .symbol right => left == right
  | .javaScriptCodeWithScope left leftScope, .javaScriptCodeWithScope right rightScope =>
      left == right && leftScope.length == rightScope.length &&
        fieldsIdentical leftScope rightScope
  | .int32 left, .int32 right => left == right
  | .timestamp leftTime left, .timestamp rightTime right => leftTime == rightTime && left == right
  | .int64 left, .int64 right => left == right
  | .decimal128 left, .decimal128 right => left == right
  | .maxKey, .maxKey => true
  | .minKey, .minKey => true
  | _, _ => false

/-- Strict equality of two lists of elements. -/
def itemsIdentical : List Value → List Value → Bool
  | [], [] => true
  | left :: lefts, right :: rights => left.identical right && itemsIdentical lefts rights
  | _, _ => false

/-- True exactly when every field on the left has an identical field on the right. -/
def fieldsIdentical : List (String × Value) → List (String × Value) → Bool
  | [], _ => true
  | (name, value) :: fields, others =>
      (match Document.field? others name with
        | some other => value.identical other
        | none => false) && fieldsIdentical fields others

end

/-- Strings are identical exactly when they are equal. -/
@[simp] theorem Value.identical_string (left right : String) :
    (Value.string left).identical (.string right) = (left == right) := rfl

/-- Strings are alike exactly when they are equal. -/
@[simp] theorem Value.alike_string (left right : String) :
    (Value.string left).alike (.string right) = (left == right) := rfl

example : (Value.int32 1).alike (.int64 1) = true ∧ (Value.int32 1).identical (.int64 1) = false := by
  decide

example : Value.order? .null .null = none ∧ Value.alike .null .minKey = true := by
  decide

end DocStore
