import DocStore.Proofs.Rounding
import Mathlib.Algebra.Order.Field.Rat
import Mathlib.Algebra.Order.Ring.Cast
import Mathlib.Order.Monotone.Odd
import Mathlib.Tactic.Lift

/-!
# The numbers that doubles are

Doubles are compared by places, and a place is read off a bit pattern without a word on what the
pattern stands for. Here a double gets its value, a rational number made of significand and
exponent. Main statements: the order of places is the order of values, and an integer whose size is
at most two to the power of 53 becomes the double of its own value.

Values are counted in the least positive double, so that patterns stand for natural numbers. The
order is then a matter of one step: the next pattern stands for more, also where its significand
starts again and its exponent is one higher.
-/

namespace DocStore

/-- A function of sizes carried over to signed numbers. -/
def signed (function : Nat → Nat) (number : Int) : Int :=
  number.sign * function number.natAbs

section

variable {function : Nat → Nat}

theorem signed_neg (number : Int) : signed function (-number) = -signed function number := by
  simp [signed]

theorem signed_natCast (origin : function 0 = 0) (number : Nat) :
    signed function number = function number := by
  rcases Nat.eq_zero_or_pos number with rfl | positive
  · simp [signed, origin]
  · simp [signed, Int.sign_natCast_of_ne_zero positive.ne']

theorem signed_eq (origin : function 0 = 0) (number : Int) :
    signed function number =
      if number < 0 then -(function number.natAbs : Int) else function number.natAbs := by
  split
  · rename_i negative
    rw [signed, Int.sign_eq_neg_one_of_neg negative, neg_one_mul]
  · rename_i nonnegative
    lift number to Nat using Int.not_lt.mp nonnegative
    exact signed_natCast origin number

/-- What keeps the order of sizes keeps the order of signed numbers. -/
theorem signed_le (origin : function 0 = 0) (monotone : Monotone function) {low high : Int}
    (ordered : low ≤ high) : signed function low ≤ signed function high := by
  refine monotone_of_odd_of_monotoneOn_nonneg signed_neg ?_ ordered
  intro low lowNonnegative high highNonnegative ordered
  lift low to Nat using lowNonnegative
  lift high to Nat using highNonnegative
  rw [signed_natCast origin, signed_natCast origin]
  exact Int.ofNat_le.mpr (monotone (Int.ofNat_le.mp ordered))

/-- The same for the strict order. -/
theorem signed_lt (origin : function 0 = 0) (strict : StrictMono function) {low high : Int}
    (below : low < high) : signed function low < signed function high := by
  refine strictMono_of_odd_strictMonoOn_nonneg signed_neg ?_ below
  intro low lowNonnegative high highNonnegative below
  lift low to Nat using lowNonnegative
  lift high to Nat using highNonnegative
  rw [signed_natCast origin, signed_natCast origin]
  exact Int.ofNat_lt.mpr (strict (Int.ofNat_lt.mp below))

end

namespace Double

/-- How many of the least positive double make one: two to the power of 1074. -/
def unitsInOne : Nat := 1 <<< 1074

/-- What a pattern without a sign stands for, counted in the least positive double. From the
exponent one on a hidden bit stands above the fraction, and each further exponent doubles the
whole. -/
def units (pattern : Nat) : Nat :=
  let exponent := pattern / exponentWeight
  let fraction := pattern % exponentWeight
  if exponent = 0 then fraction else (exponentWeight + fraction) <<< (exponent - 1)

/-- The rational number that a double is. A NaN is none, and neither are the infinities. -/
def value? (number : Double) : Option ℚ :=
  if infinity ≤ number.magnitude then none
  else
    let amount : ℚ := units number.magnitude / unitsInOne
    some (if number.negative then -amount else amount)

theorem unitsInOne_pos : (0 : ℚ) < unitsInOne := by
  rw [unitsInOne, Nat.one_shiftLeft, Nat.cast_pos]
  exact Nat.two_pow_pos 1074

theorem units_zero : units 0 = 0 := rfl

/-- What a pattern stands for, by the two parts of the pattern. -/
theorem units_mul_add (exponent : Nat) {fraction : Nat} (below : fraction < exponentWeight) :
    units (exponent * exponentWeight + fraction) =
      if exponent = 0 then fraction else (exponentWeight + fraction) <<< (exponent - 1) := by
  have weight : 0 < exponentWeight := by decide
  have high : (exponent * exponentWeight + fraction) / exponentWeight = exponent := by
    rw [Nat.add_comm, Nat.add_mul_div_right _ _ weight, Nat.div_eq_of_lt below, Nat.zero_add]
  have low : (exponent * exponentWeight + fraction) % exponentWeight = fraction := by
    rw [Nat.add_comm, Nat.add_mul_mod_self_right, Nat.mod_eq_of_lt below]
  simp only [units, high, low]

/-- The next pattern stands for more. Either its fraction is one higher, or it starts again with the
fraction zero and twice the weight. -/
theorem units_lt_succ (pattern : Nat) : units pattern < units (pattern + 1) := by
  have weight : 0 < exponentWeight := by decide
  have below := Nat.mod_lt pattern weight
  have split := Nat.div_add_mod' pattern exponentWeight
  generalize pattern / exponentWeight = exponent at split
  generalize pattern % exponentWeight = fraction at split below
  subst split
  rw [units_mul_add exponent below]
  by_cases room : fraction + 1 < exponentWeight
  · rw [Nat.add_assoc, units_mul_add exponent room]
    split
    · exact Nat.lt_succ_self fraction
    · simp only [Nat.shiftLeft_eq]
      exact Nat.mul_lt_mul_of_pos_right (by omega) (Nat.two_pow_pos _)
  · have carried : exponent * exponentWeight + fraction + 1 =
        (exponent + 1) * exponentWeight + 0 := by
      rw [Nat.succ_mul]
      omega
    rw [carried, units_mul_add (exponent + 1) weight, if_neg (Nat.succ_ne_zero exponent)]
    simp only [Nat.shiftLeft_eq, Nat.add_sub_cancel]
    split
    · rename_i zero
      simpa [zero] using below
    · rename_i positive
      obtain ⟨previous, rfl⟩ := Nat.exists_eq_succ_of_ne_zero positive
      calc (exponentWeight + fraction) * 2 ^ previous
          < (exponentWeight * 2) * 2 ^ previous :=
            Nat.mul_lt_mul_of_pos_right (by omega) (Nat.two_pow_pos _)
        _ = (exponentWeight + 0) * 2 ^ (previous + 1) := by
            rw [Nat.add_zero, Nat.mul_assoc, Nat.pow_succ']

/-- Patterns are in the order of what they stand for. -/
theorem units_strictMono : StrictMono units :=
  strictMono_nat_of_lt_succ units_lt_succ

/-- A double that is a rational number has the place that this number has among the doubles. -/
theorem place_of_value? {number : Double} {amount : ℚ} (valued : number.value? = some amount) :
    ∃ place, number.position? = some place ∧ amount = signed units place / unitsInOne := by
  rw [value?] at valued
  split at valued
  · cases valued
  · rename_i finite
    cases valued
    refine ⟨_, by rw [position?, if_neg (by omega)], ?_⟩
    cases number.negative <;> simp [signed_neg, signed_natCast units_zero, neg_div]

/-- Doubles are compared by the numbers that they are. -/
theorem order?_eq_compare {left right : Double} {amount other : ℚ}
    (leftValued : left.value? = some amount) (rightValued : right.value? = some other) :
    left.order? right = some (compare amount other) := by
  obtain ⟨place, leftPlaced, rfl⟩ := place_of_value? leftValued
  obtain ⟨otherPlace, rightPlaced, rfl⟩ := place_of_value? rightValued
  have strict : StrictMono fun place => (signed units place : ℚ) / unitsInOne := by
    intro low high below
    have less := signed_lt units_zero units_strictMono below
    exact div_lt_div_of_pos_right (Int.cast_lt.mpr less) unitsInOne_pos
  have same := strict.cmp_map_eq place otherPlace
  rw [cmp_eq_compare, cmp_eq_compare] at same
  rw [order?, leftPlaced, rightPlaced]
  exact congrArg some same.symm

/-- Doubles that are the same number are in the same place. -/
theorem position?_eq_of_value? {left right : Double} {amount : ℚ}
    (leftValued : left.value? = some amount) (rightValued : right.value? = some amount) :
    left.position? = right.position? := by
  have equal : left.equals right = true := by
    rw [equals, order?_eq_compare leftValued rightValued, compare_eq_iff_eq.mpr rfl]
    rfl
  exact ((equals_iff left right).mp equal).2

/-- Up to two to the power of 53 the pattern of a number stands for just that number. Its binary
digits fit in the significand, the highest of them as the hidden bit. The power itself has a digit
more, and rounding takes off a zero. -/
theorem units_patternOfNat {number : Nat} (small : number ≤ 9007199254740992) :
    units (patternOfNat number) = number * unitsInOne := by
  by_cases zero : number = 0
  · simp [zero, patternOfNat, units_zero]
  by_cases power : number = 9007199254740992
  · subst power
    decide +kernel
  have digits : number.log2 < 53 := (Nat.log2_lt zero).mpr (by simp only [Nat.reducePow]; omega)
  have low := le_significand zero
  obtain ⟨shifted, high⟩ := @significand_of_fits number (by omega)
  have hidden : patternOfNat number =
      (number.log2 + 1023) * exponentWeight + (significand number - exponentWeight) := by
    rw [patternOfNat_of_ne_zero zero, Nat.succ_mul (number.log2 + 1022)]
    omega
  have whole (places : Nat) : number <<< places = number * 1 <<< places := by
    rw [Nat.shiftLeft_eq, Nat.one_shiftLeft]
  rw [hidden, units_mul_add _ (by omega), if_neg (by omega), Nat.add_sub_cancel' low, shifted,
    ← Nat.shiftLeft_add, show 52 - number.log2 + (number.log2 + 1023 - 1) = 1074 by omega]
  exact whole 1074

/-- An integer whose size is at most two to the power of 53 becomes the double of its own value. -/
theorem value?_ofInt {number : Int} (small : number.natAbs ≤ 9007199254740992) :
    (ofInt number).value? = some (number : ℚ) := by
  have parts := @parts_ofInt number (by omega)
  have finite := @patternOfNat_lt number.natAbs (by omega)
  rw [value?, parts.1, parts.2, if_neg (by omega), units_patternOfNat small, Nat.cast_mul,
    mul_div_cancel_right₀ _ unitsInOne_pos.ne', ← Int.cast_natCast]
  simp only [decide_eq_true_eq]
  split
  · have size : (number.natAbs : Int) = -number := by omega
    rw [size, Int.cast_neg, neg_neg]
  · have size : (number.natAbs : Int) = number := by omega
    rw [size]

end Double

end DocStore
