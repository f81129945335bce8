import DocStore.Instant.Text
import DocStore.Proofs.Dates

/-!
# Reading times as they are written

Each part of a time is read back from its text, and reading stops where the text of the part ends,
because a mark follows that is neither a digit nor blank. The date exists and has the day number it
was made from, and the time of day is that of the seconds behind it, so the parts make the instant
again.

Main statement: an instant of the representable years, with less than a second of nanoseconds, is
the one that its text names. Years before zero and years of more than four digits are among them.
-/

namespace DocStore

/-- The digits of numbers are those of the standard library. -/
theorem isDigit_eq (letter : Char) : isDigit letter = letter.isDigit := by
  unfold isDigit Char.isDigit
  rw [Bool.eq_iff_iff]
  simp [Char.le_def]

/-- A run of digits denotes the number that the standard library reads from it. -/
theorem digitsValue_eq (digits : List Char) :
    digitsValue digits = Nat.ofDigitChars 10 digits 0 := by
  rw [Nat.ofDigitChars_eq_foldl]
  rfl

namespace Instant

/-- A number is written with its own digits behind the zeros that fill its width. -/
theorem digitsOf_eq (width number : Nat) :
    digitsOf width number = List.replicate (width - (Nat.toDigits 10 number).length) '0' ++
      Nat.toDigits 10 number := rfl

/-- A number is written in digits. -/
theorem isDigit_of_mem_digitsOf {width number : Nat} {letter : Char}
    (inside : letter ∈ digitsOf width number) : isDigit letter = true := by
  rw [isDigit_eq]
  rcases List.mem_append.mp inside with zero | digit
  · rw [List.eq_of_mem_replicate zero]
    rfl
  · exact Nat.isDigit_of_mem_toDigits (by omega) (by omega) digit

/-- The digits of a number denote it, whatever its width. -/
theorem digitsValue_digitsOf (width number : Nat) :
    digitsValue (digitsOf width number) = number := by
  rw [digitsValue_eq, digitsOf_eq, Nat.ofDigitChars_append, Nat.ofDigitChars_replicate_zero,
    Nat.mul_zero, Nat.ofDigitChars_ten_toDigits]

/-- A number that fits a width is written with as many digits. -/
theorem length_digitsOf {width number : Nat} (positive : 0 < width)
    (fits : number < Nat.pow 10 width) : (digitsOf width number).length = width := by
  have short : (Nat.toDigits 10 number).length ≤ width :=
    (Nat.length_toDigits_le_iff (by omega) positive).mpr fits
  rw [digitsOf_eq, List.length_append, List.length_replicate]
  omega

/-- The digits of a number begin with one. -/
theorem digitsOf_eq_cons (width number : Nat) :
    ∃ digit others, digitsOf width number = digit :: others ∧ isDigit digit = true := by
  cases digits : digitsOf width number with
  | nil => exact absurd (List.append_eq_nil_iff.mp digits).2 Nat.toDigits_ne_nil
  | cons digit others =>
      have inside : digit ∈ digitsOf width number := by
        rw [digits]
        exact List.mem_cons_self
      exact ⟨digit, others, rfl, isDigit_of_mem_digitsOf inside⟩

/-- The digits of a number are read up to a letter that is none. -/
theorem readDigits_digitsOf {width number most : Nat}
    (fits : (digitsOf width number).length ≤ most) {stop : Char} (stops : isDigit stop = false)
    (rest : List Char) :
    readDigits most (digitsOf width number ++ stop :: rest) = some (number, stop :: rest) := by
  have taken : ((digitsOf width number ++ stop :: rest).take most).takeWhile isDigit =
      digitsOf width number := by
    rw [List.take_append, List.take_of_length_le fits,
      List.takeWhile_append_of_pos fun _ inside => isDigit_of_mem_digitsOf inside]
    cases most - (digitsOf width number).length with
    | zero => simp
    | succ left => simp [stops]
  have nonempty : digitsOf width number ≠ [] := by
    obtain ⟨digit, others, digits, _⟩ := digitsOf_eq_cons width number
    rw [digits]
    exact List.cons_ne_nil digit others
  simp only [readDigits, taken, List.isEmpty_iff, if_neg nonempty, digitsValue_digitsOf,
    List.drop_left]

/-- No digit is blank. -/
theorem isBlank_of_isDigit {letter : Char} (digit : isDigit letter = true) :
    isBlank letter = false := by
  rw [isDigit_eq, Char.isDigit_iff_toNat] at digit
  have zero : '0'.toNat = 48 := rfl
  have nine : '9'.toNat = 57 := rfl
  simp only [isBlank, decide_eq_false_iff_not]
  omega

/-- No blanks are skipped in front of a letter that is not blank. -/
theorem skipBlanks_cons {letter : Char} (visible : isBlank letter = false) (rest : List Char) :
    skipBlanks (letter :: rest) = letter :: rest := by
  simp [skipBlanks, visible]

/-- No blanks are skipped in front of a number. -/
theorem skipBlanks_digitsOf (width number : Nat) (rest : List Char) :
    skipBlanks (digitsOf width number ++ rest) = digitsOf width number ++ rest := by
  obtain ⟨digit, others, digits, numeric⟩ := digitsOf_eq_cons width number
  rw [digits, List.cons_append, skipBlanks_cons (isBlank_of_isDigit numeric)]

/-- A number of two digits is read back. -/
theorem readPair_digitsOf {number : Nat} (small : number < 100) {stop : Char}
    (stops : isDigit stop = false) (rest : List Char) :
    readPair (digitsOf 2 number ++ stop :: rest) = some (number, stop :: rest) := by
  have fits : (digitsOf 2 number).length ≤ 2 := Nat.le_of_eq (length_digitsOf (by omega) small)
  rw [readPair, skipBlanks_digitsOf, readDigits_digitsOf fits stops]

/-- A mark is read. -/
theorem readMark_cons {mark : Char} (visible : isBlank mark = false) (rest : List Char) :
    readMark mark (mark :: rest) = some rest := by
  simp [readMark, skipBlanks_cons visible]

/-- A year of four digits has no sign in front, and is read back. -/
theorem readYear_digitsOf {year : Nat} (small : year ≤ 9999) (rest : List Char) :
    readYear (digitsOf 4 year ++ '-' :: rest) = some ((year : Int), '-' :: rest) := by
  have fits : (digitsOf 4 year).length ≤ 4 :=
    Nat.le_of_eq (length_digitsOf (by omega) (Nat.lt_succ_of_le small))
  have read := readDigits_digitsOf fits (show isDigit '-' = false by decide) rest
  obtain ⟨digit, others, digits, numeric⟩ := digitsOf_eq_cons 4 year
  rw [readYear, skipBlanks_digitsOf]
  rw [digits, List.cons_append] at read ⊢
  split
  · rename_i minus
    rw [(List.cons.inj minus).1] at numeric
    cases numeric
  · rename_i plus
    rw [(List.cons.inj plus).1] at numeric
    cases numeric
  · rw [read]
    rfl

/-- A year is read back, with a sign or without. -/
theorem readYear_yearText (year : Int) (rest : List Char) :
    readYear (yearText year ++ '-' :: rest) = some (year, '-' :: rest) := by
  unfold yearText
  by_cases plain : 0 ≤ year ∧ year ≤ 9999
  · rw [if_pos plain, readYear_digitsOf (by omega), Int.toNat_of_nonneg plain.1]
  · have fits : (digitsOf 4 year.natAbs).length ≤
        (digitsOf 4 year.natAbs ++ '-' :: rest).length := by
      rw [List.length_append]
      omega
    have read := readDigits_digitsOf fits (show isDigit '-' = false by decide) rest
    rw [if_neg plain]
    by_cases before : year < 0
    · have negated : -(year.natAbs : Int) = year := by omega
      rw [if_pos before, List.cons_append, readYear, skipBlanks_cons (by decide)]
      simp only [read, Option.map_some, negated]
    · have same : (year.natAbs : Int) = year := by omega
      rw [if_neg before, List.cons_append, readYear, skipBlanks_cons (by decide)]
      simp only [read, Option.map_some, same]

/-- Decimals are read back as nanoseconds. -/
theorem readFraction_digitsOf {width number : Nat}
    (length : (digitsOf width number).length = width) (within : width ≤ 9) (rest : List Char) :
    readFraction ('.' :: digitsOf width number ++ 'Z' :: rest) =
      some (number * Nat.pow 10 (9 - width), 'Z' :: rest) := by
  have fits : (digitsOf width number).length ≤ 9 := by omega
  have read := readDigits_digitsOf fits (show isDigit 'Z' = false by decide) rest
  have counted : (digitsOf width number ++ 'Z' :: rest).length - ('Z' :: rest).length = width := by
    rw [List.length_append, length]
    omega
  have ended : ('Z' :: rest).dropWhile isDigit = 'Z' :: rest := by
    simp [show isDigit 'Z' = false by decide]
  simp only [List.cons_append, readFraction, read, counted, ended]

/-- Nanoseconds are read back from the decimals they are written with, which may be none. There is
one case for each number of decimals. -/
theorem readFraction_fractionText {nanos : Nat} (below : nanos < nanosPerSecond)
    (rest : List Char) :
    readFraction (fractionText nanos ++ 'Z' :: rest) = some (nanos, 'Z' :: rest) := by
  unfold fractionText
  by_cases whole : nanos = 0
  · rw [if_pos whole, whole]
    rfl
  · rw [if_neg whole]
    unfold nanosPerSecond at below
    by_cases millis : nanos % 1000000 = 0
    · have three : nanos / 1000000 < 1000 := by omega
      have scaled : nanos / 1000000 * 1000000 = nanos := by omega
      rw [if_pos millis, readFraction_digitsOf (length_digitsOf (by omega) three) (by omega)]
      exact congrArg (fun nanos => some (nanos, 'Z' :: rest)) scaled
    · rw [if_neg millis]
      by_cases micros : nanos % 1000 = 0
      · have six : nanos / 1000 < 1000000 := by omega
        have scaled : nanos / 1000 * 1000 = nanos := by omega
        rw [if_pos micros, readFraction_digitsOf (length_digitsOf (by omega) six) (by omega)]
        exact congrArg (fun nanos => some (nanos, 'Z' :: rest)) scaled
      · rw [if_neg micros, readFraction_digitsOf (length_digitsOf (by omega) below) (by omega)]
        exact congrArg (fun nanos => some (nanos, 'Z' :: rest)) (Nat.mul_one nanos)

/-- Behind the seconds of a time stands a point or the zone, so no digit. -/
theorem fractionText_stops (nanos : Nat) (rest : List Char) :
    ∃ stop others, fractionText nanos ++ 'Z' :: rest = stop :: others ∧ isDigit stop = false := by
  have point : isDigit '.' = false := by decide
  unfold fractionText
  split
  · exact ⟨'Z', rest, rfl, by decide⟩
  · split
    · exact ⟨'.', _, rfl, point⟩
    · split <;> exact ⟨'.', _, rfl, point⟩

/-- An instant within the range of years, outside of leap seconds. -/
structure InRange (instant : Instant) : Prop where
  representable : instant.isRepresentable = true
  leapless : instant.nanos < nanosPerSecond

/-- The parts of an instant in UTC make the instant. Its date has the number of its day, and hours,
minutes and seconds add up to the seconds behind midnight. -/
theorem ofParts?_eq {instant : Instant} (inRange : instant.InRange) :
    ofParts? (Date.ofDayNumber (instant.seconds / secondsPerDay))
        ((instant.seconds % secondsPerDay).toNat / 3600)
        ((instant.seconds % secondsPerDay).toNat / 60 % 60)
        ((instant.seconds % secondsPerDay).toNat % 60) instant.nanos 0 = some instant := by
  have years := inRange.representable
  simp only [isRepresentable, decide_eq_true_eq] at years
  have there := Date.exists_ofDayNumber (instant.seconds / secondsPerDay)
  have numbered := Date.dayNumber_ofDayNumber (instant.seconds / secondsPerDay)
  have midnight : (instant.seconds % secondsPerDay).toNat < 86400 := by
    unfold secondsPerDay
    omega
  have remaining : instant.seconds = instant.seconds / secondsPerDay * secondsPerDay +
      (instant.seconds % secondsPerDay).toNat := by
    unfold secondsPerDay
    omega
  generalize (instant.seconds % secondsPerDay).toNat = second at midnight remaining ⊢
  have noLeap : second % 60 / 60 = 0 := by omega
  have clock : second / 3600 * 3600 + second / 60 % 60 * 60 + second % 60 = second := by omega
  have existing : ¬ (¬ (Date.ofDayNumber (instant.seconds / secondsPerDay)).exists? = true ∨
      (Date.ofDayNumber (instant.seconds / secondsPerDay)).year < firstYear ∨
      lastYear < (Date.ofDayNumber (instant.seconds / secondsPerDay)).year) := by
    rintro (absent | early | late)
    · exact absent there
    · omega
    · omega
  have timely : ¬ (23 < second / 3600 ∨ 59 < second / 60 % 60 ∨ 60 < second % 60) := by omega
  have zoned : ¬ ((0 : Int) ≤ -secondsPerDay ∨ (secondsPerDay : Int) ≤ 0) := by decide
  rw [ofParts?, if_neg existing, if_neg timely, if_neg zoned]
  simp only [numbered, noLeap, Nat.sub_zero, clock, Int.sub_zero, ← remaining, Nat.zero_mul,
    Nat.add_zero]
  exact if_pos inRange.representable

/-- An instant in range is the one that its text names. The parts of the text are read one after the
other, each up to the mark behind it. -/
theorem read?_text {instant : Instant} (inRange : instant.InRange) :
    read? instant.text = some instant := by
  obtain ⟨months, days⟩ :=
    Date.bounds_of_exists (Date.exists_ofDayNumber (instant.seconds / secondsPerDay))
  have midnight : (instant.seconds % secondsPerDay).toNat < 86400 := by
    unfold secondsPerDay
    omega
  have noLeap : instant.nanos / nanosPerSecond = 0 := Nat.div_eq_of_lt inRange.leapless
  have whole : instant.nanos % nanosPerSecond = instant.nanos :=
    Nat.mod_eq_of_lt inRange.leapless
  have hyphen : isDigit '-' = false ∧ isBlank '-' = false := by decide
  have colon : isDigit ':' = false ∧ isBlank ':' = false := by decide
  have zone : isBlank 'Z' = false := by decide
  obtain ⟨stop, others, front, stops⟩ := fractionText_stops instant.nanos []
  simp only [read?, text, String.toList_ofList, noLeap, whole, Nat.add_zero, List.append_assoc,
    List.cons_append, List.nil_append, Option.bind_eq_bind]
  rw [readYear_yearText]
  simp only [Option.bind_some, readMark_cons hyphen.2]
  rw [readPair_digitsOf (by omega) hyphen.1]
  simp only [Option.bind_some, readMark_cons hyphen.2]
  rw [readPair_digitsOf (by omega) (show isDigit 'T' = false by decide)]
  simp only [Option.bind_some, readSeparator]
  rw [readPair_digitsOf (by omega) colon.1]
  simp only [Option.bind_some, readMark_cons colon.2]
  rw [readPair_digitsOf (by omega) colon.1]
  simp only [Option.bind_some, readMark_cons colon.2]
  rw [front, readPair_digitsOf (by omega) stops]
  simp only [Option.bind_some]
  rw [← front, readFraction_fractionText inRange.leapless]
  simp only [Option.bind_some, skipBlanks_cons zone, readZone]
  exact ofParts?_eq inRange

/-- The last day of the year before zero, and the first instant of a year of five digits. -/
example : (⟨-62167219201, 5000000⟩ : Instant).text = "-0001-12-31T23:59:59.005Z" ∧
    (⟨253402300800, 0⟩ : Instant).text = "+10000-01-01T00:00:00Z" := by
  decide +kernel

end Instant

end DocStore
