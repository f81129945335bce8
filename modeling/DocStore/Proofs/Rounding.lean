import DocStore.Double

/-!
# Rounding integers to doubles

An integer becomes the double nearest to it. Here its pattern is followed from the significand to
the place that comparisons read. Main statements: an integer of at most 64 binary digits has a
place, and the pattern of a natural number is not below that of a lower one.

Among the numbers of as many binary digits the significand grows. From those to the next ones it
starts again at the hidden bit, where the exponent makes up for it; a significand that rounds up to
the next power of two just meets them.
-/

namespace DocStore.Double

/-- A rounded quotient is at most one more than the whole part. -/
theorem roundHalfEven_le (numerator denominator : Nat) :
    roundHalfEven numerator denominator ≤ numerator / denominator + 1 := by
  simp only [roundHalfEven]
  split
  · omega
  · split <;> omega

/-- A rounded quotient is not less than the whole part. -/
theorem le_roundHalfEven (numerator denominator : Nat) :
    numerator / denominator ≤ roundHalfEven numerator denominator := by
  simp only [roundHalfEven]
  split
  · omega
  · split <;> omega

/-- Rounding a quotient keeps the order. Quotients of one whole part are rounded by what is left. -/
theorem roundHalfEven_mono {low high : Nat} (denominator : Nat) (ordered : low ≤ high) :
    roundHalfEven low denominator ≤ roundHalfEven high denominator := by
  rcases Nat.lt_or_eq_of_le (Nat.div_le_div_right (c := denominator) ordered) with below | same
  · calc roundHalfEven low denominator
        ≤ low / denominator + 1 := roundHalfEven_le low denominator
      _ ≤ high / denominator := below
      _ ≤ roundHalfEven high denominator := le_roundHalfEven high denominator
  · have left : low % denominator ≤ high % denominator := by
      have lowSplit := Nat.div_add_mod low denominator
      have highSplit := Nat.div_add_mod high denominator
      rw [same] at lowSplit
      omega
    simp only [roundHalfEven, same]
    repeat' split
    all_goals omega

/-- The significand that a number is rounded to, the hidden bit included. Where it rounds up to the
next power of two, the bit above is set. -/
def significand (number : Nat) : Nat :=
  if number.log2 ≤ 52 then number <<< (52 - number.log2)
  else roundHalfEven number (1 <<< (number.log2 - 52))

/-- A pattern is put together from exponent and significand. -/
theorem patternOfNat_of_ne_zero {number : Nat} (positive : number ≠ 0) :
    patternOfNat number = (number.log2 + 1022) * exponentWeight + significand number := by
  simp only [patternOfNat, if_neg positive, significand]

/-- The hidden bit of a significand is set, or the one above it. -/
theorem le_significand {number : Nat} (positive : number ≠ 0) :
    exponentWeight ≤ significand number := by
  have bounded := Nat.log2_self_le positive
  rw [significand]
  generalize number.log2 = exponent at bounded
  split
  · have scaled := Nat.mul_le_mul_right (2 ^ (52 - exponent)) bounded
    rw [← Nat.pow_add, show exponent + (52 - exponent) = 52 by omega] at scaled
    rw [Nat.shiftLeft_eq]
    exact scaled
  · rw [show exponent = 52 + (exponent - 52) by omega, Nat.pow_add] at bounded
    have quotient := (Nat.le_div_iff_mul_le (Nat.two_pow_pos (exponent - 52))).mpr bounded
    rw [Nat.one_shiftLeft]
    exact Nat.le_trans quotient (le_roundHalfEven _ _)

/-- A number of at most 53 binary digits is not rounded, and so leaves the bit above the hidden one
clear. -/
theorem significand_of_fits {number : Nat} (fits : number.log2 ≤ 52) :
    significand number = number <<< (52 - number.log2) ∧
      significand number < 2 * exponentWeight := by
  have scaled := Nat.mul_lt_mul_of_pos_right (@Nat.lt_log2_self number)
    (Nat.two_pow_pos (52 - number.log2))
  rw [← Nat.pow_add, show number.log2 + 1 + (52 - number.log2) = 53 by omega] at scaled
  rw [significand, if_pos fits, Nat.shiftLeft_eq]
  exact ⟨rfl, scaled⟩

/-- The significand of a number fills no more than its field and the bit above it. -/
theorem significand_le (number : Nat) : significand number ≤ 2 * exponentWeight := by
  by_cases fits : number.log2 ≤ 52
  · exact Nat.le_of_lt (significand_of_fits fits).2
  · have bounded := @Nat.lt_log2_self number
    rw [significand, if_neg fits, Nat.one_shiftLeft]
    generalize number.log2 = exponent at bounded fits
    rw [show exponent + 1 = exponent - 52 + 53 by omega, Nat.pow_add] at bounded
    have quotient := Nat.div_lt_of_lt_mul bounded
    have rounded := roundHalfEven_le number (2 ^ (exponent - 52))
    simp only [Nat.reducePow, exponentWeight] at quotient ⊢
    omega

/-- Among numbers of as many binary digits significands keep the order. -/
theorem significand_mono {low high : Nat} (digits : low.log2 = high.log2) (ordered : low ≤ high) :
    significand low ≤ significand high := by
  rw [significand, significand, digits]
  split
  · simp only [Nat.shiftLeft_eq]
    exact Nat.mul_le_mul_right _ ordered
  · exact roundHalfEven_mono _ ordered

/-- The pattern of a number of at most 64 binary digits does not reach infinity. -/
theorem patternOfNat_lt {number : Nat} (small : number < 18446744073709551616) :
    patternOfNat number < infinity := by
  by_cases zero : number = 0
  · simp [patternOfNat, zero, infinity, exponentWeight]
  · have exponent : number.log2 < 64 := (Nat.log2_lt zero).mpr small
    have bounded := significand_le number
    rw [patternOfNat_of_ne_zero zero]
    simp only [infinity, exponentWeight] at bounded ⊢
    omega

/-- Patterns of natural numbers keep the order. The pattern of a number ends at the latest where the
patterns of the numbers with one binary digit more begin. -/
theorem patternOfNat_mono {low high : Nat} (ordered : low ≤ high) :
    patternOfNat low ≤ patternOfNat high := by
  rcases Nat.eq_zero_or_pos low with rfl | positive
  · exact Nat.zero_le _
  rw [patternOfNat_of_ne_zero (by omega), patternOfNat_of_ne_zero (by omega)]
  have digits : low.log2 ≤ high.log2 :=
    (Nat.le_log2 (by omega)).mpr (Nat.le_trans (Nat.log2_self_le (by omega)) ordered)
  rcases Nat.lt_or_eq_of_le digits with fewer | same
  · calc (low.log2 + 1022) * exponentWeight + significand low
        ≤ (low.log2 + 1022) * exponentWeight + 2 * exponentWeight :=
          Nat.add_le_add_left (significand_le low) _
      _ = (low.log2 + 1 + 1022) * exponentWeight + exponentWeight := by
          simp only [exponentWeight]
          omega
      _ ≤ (high.log2 + 1022) * exponentWeight + significand high :=
          Nat.add_le_add (Nat.mul_le_mul_right _ (by omega)) (le_significand (by omega))
  · rw [same]
    exact Nat.add_le_add_left (significand_mono same ordered) _

/-- The pattern of an integer of at most 64 binary digits is that of its size, and its sign is the
sign of the integer. -/
theorem parts_ofInt {number : Int} (small : number.natAbs < 18446744073709551616) :
    (ofInt number).magnitude = patternOfNat number.natAbs ∧
      (ofInt number).negative = decide (number < 0) := by
  have pattern := patternOfNat_lt small
  simp only [infinity, exponentWeight] at pattern
  simp only [ofInt, magnitude, negative, UInt64.toNat_ofNat', signWeight, decide_eq_decide]
  split <;> omega

/-- An integer of at most 64 binary digits is rounded to a number that has a place. -/
theorem position?_ofInt {number : Int} (small : number.natAbs < 18446744073709551616) :
    (ofInt number).position? ≠ none := by
  rw [position?, (parts_ofInt small).1, if_neg (Nat.lt_asymm (patternOfNat_lt small))]
  exact Option.some_ne_none _

end DocStore.Double
