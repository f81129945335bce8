/-!
# Binary64 numbers

A stored double is its sixty-four bit pattern. Numbers are compared by their position on the
real line, read off the pattern as an integer: a NaN has no position and the two zeros share
one. Integers enter by rounding to the nearest double, ties going to the even significand.
-/

namespace DocStore

/-- An IEEE-754 binary64 number, kept as its bit pattern so that NaN payloads and the sign of a
zero survive storage. -/
structure Double where
  bits : UInt64
deriving DecidableEq, Repr

namespace Double

/-- The weight of the sign bit in a pattern: two to the power of 63. -/
def signWeight : Nat := 9223372036854775808

/-- The weight of the lowest exponent bit in a pattern: two to the power of 52. -/
def exponentWeight : Nat := 4503599627370496

/-- The pattern of positive infinity; patterns of positive numbers grow with the number up to it. -/
def infinity : Nat := 2047 * exponentWeight

/-- Exponent and significand read as one number, without the sign bit. -/
def magnitude (number : Double) : Nat :=
  number.bits.toNat % signWeight

/-- True exactly when the sign bit is set. -/
def negative (number : Double) : Bool :=
  decide (signWeight ≤ number.bits.toNat)

/-- The place of a number on the real line, counted in representable numbers from zero; a NaN has
none. Both zeros lie at zero. -/
def position? (number : Double) : Option Int :=
  if infinity < number.magnitude then none
  else some (if number.negative then -(number.magnitude : Int) else number.magnitude)

/-- The numeric order of two doubles; a NaN is unordered to everything, itself included. -/
def order? (left right : Double) : Option Ordering :=
  match left.position?, right.position? with
  | some leftPosition, some rightPosition => some (compare leftPosition rightPosition)
  | _, _ => none

/-- Numeric equality: zeros agree whatever their sign and a NaN equals nothing. -/
def equals (left right : Double) : Bool :=
  left.order? right == some .eq

/-- The quotient of two natural numbers, rounded to the nearest and from the middle to the even
neighbour. -/
def roundHalfEven (numerator denominator : Nat) : Nat :=
  let quotient := numerator / denominator
  let twice := 2 * (numerator % denominator)
  if twice < denominator then quotient
  else if denominator < twice then quotient + 1
  else quotient + quotient % 2

/-- The pattern of the double nearest to a natural number that doubles can hold. The significand is
added to the exponent field rather than placed beside it, so that a significand that rounds up to
the next power of two carries into the exponent. -/
def patternOfNat (number : Nat) : Nat :=
  if number = 0 then 0
  else
    let exponent := number.log2
    let significand :=
      if exponent ≤ 52 then number <<< (52 - exponent)
      else roundHalfEven number (1 <<< (exponent - 52))
    (exponent + 1022) * exponentWeight + significand

/-- The double nearest to an integer. -/
def ofInt (number : Int) : Double :=
  ⟨UInt64.ofNat (patternOfNat number.natAbs + if number < 0 then signWeight else 0)⟩

/-- A number with a position equals itself. -/
theorem equals_self_iff (number : Double) :
    number.equals number = true ↔ number.position? ≠ none := by
  unfold equals order?
  cases number.position? <;> simp

/-- Numeric equality is equality of positions. -/
theorem equals_iff (left right : Double) :
    left.equals right = true ↔ left.position? ≠ none ∧ left.position? = right.position? := by
  unfold equals order?
  cases left.position? <;> cases right.position? <;> simp

example : ofInt 0 = ⟨0⟩ ∧ ofInt 1 = ⟨0x3ff0000000000000⟩ ∧ ofInt (-2) = ⟨0xc000000000000000⟩ := by
  decide

/-- Above two to the power of 53 odd integers are ties: they go to the even significand. -/
example : ofInt 9007199254740993 = ofInt 9007199254740992 ∧
    ofInt 9007199254740995 = ofInt 9007199254740996 := by
  decide

/-- The greatest signed word rounds up to the next power of two. -/
example : ofInt 9223372036854775807 = ⟨0x43e0000000000000⟩ := by
  decide

end Double

end DocStore
