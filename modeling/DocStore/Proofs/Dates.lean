import DocStore.Calendar

/-!
# Days and their dates

The date of a day number is found by cutting a cycle of four hundred years into centuries, spans of
four years, years and months. The years begin in March, so that only the last part of each cut is
irregular: the last day of a span is its leap day, and the last span of a century lacks it, unless
the century is the last of its cycle.

Main statements: the date of a day number exists, and it has that day number. So every day has a
date of its own, on both sides of the year zero.
-/

namespace DocStore.Date

/-- The number of days before a month in a year that begins in March. Months are counted from zero
here, March being the first. -/
def daysBefore (month : Nat) : Nat := (153 * month + 2) / 5

/-- The day number of the first of March of a year. -/
def firstOfMarch (year : Int) : Int :=
  year / 400 * 146097 + (year % 400 * 365 + year % 400 / 4 - year % 400 / 100) - 719468

/-- The date in the year that begins in March of a calendar year, by month and day, both counted
from zero. The last two months lie in the next calendar year. -/
def ofMarch (year : Int) (month day : Nat) : Date :=
  if month < 10 then ⟨year, month + 3, day + 1⟩ else ⟨year + 1, month - 9, day + 1⟩

/-- A day of a year that begins in March has as many days before it as its month has, and those of
its month. -/
theorem dayNumber_ofMarch (year : Int) {month : Nat} (named : month < 12) (day : Nat) :
    (ofMarch year month day).dayNumber = firstOfMarch year + (daysBefore month + day : Nat) := by
  unfold ofMarch firstOfMarch daysBefore
  by_cases early : month < 10
  · have late : ¬ month + 3 ≤ 2 := by omega
    have counted : (month + 3 + 9) % 12 = month := by omega
    simp only [if_pos early, dayNumber, if_neg late, counted, Nat.add_sub_cancel]
    omega
  · have next : month - 9 ≤ 2 := by omega
    have counted : (month - 9 + 9) % 12 = month := by omega
    have same : year + 1 - 1 = year := by omega
    simp only [if_neg early, dayNumber, if_pos next, counted, same, Nat.add_sub_cancel]
    omega

/-- A day that lies before the next month exists. In February, the last month, there is a further
condition, for the year may end before the next month would begin. -/
theorem exists_ofMarch {year : Int} {month day : Nat} (named : month < 12)
    (inside : daysBefore month + day < daysBefore (month + 1))
    (february : month = 11 → day < 28 ∨ (day = 28 ∧ isLeapYear (year + 1) = true)) :
    (ofMarch year month day).exists? = true := by
  unfold daysBefore at inside
  simp only [exists?, decide_eq_true_eq]
  unfold ofMarch
  by_cases early : month < 10
  · have listed : month = 0 ∨ month = 1 ∨ month = 2 ∨ month = 3 ∨ month = 4 ∨ month = 5 ∨
        month = 6 ∨ month = 7 ∨ month = 8 ∨ month = 9 := by omega
    rw [if_pos early]
    rcases listed with rfl | rfl | rfl | rfl | rfl | rfl | rfl | rfl | rfl | rfl <;>
      (simp only [daysInMonth]; omega)
  · rw [if_neg early]
    have listed : month = 10 ∨ month = 11 := by omega
    rcases listed with rfl | rfl
    · simp only [daysInMonth]
      omega
    · simp only [daysInMonth]
      rcases february rfl with short | ⟨last, leap⟩
      · split <;> omega
      · rw [if_pos leap]
        omega

/-- A day of a year that begins in March lies in one of its twelve months. -/
theorem month_bounds {day : Nat} (within : day ≤ 365) :
    (5 * day + 2) / 153 < 12 ∧ daysBefore ((5 * day + 2) / 153) ≤ day ∧
      day < daysBefore ((5 * day + 2) / 153 + 1) := by
  unfold daysBefore
  omega

/-- A cycle has four centuries, of which the last has a day more than the others. -/
theorem century_bounds {day : Nat} (within : day < 146097) :
    min (day / 36524) 3 ≤ 3 ∧ 36524 * min (day / 36524) 3 ≤ day ∧
      day - 36524 * min (day / 36524) 3 ≤ 36524 ∧
      (day - 36524 * min (day / 36524) 3 = 36524 → min (day / 36524) 3 = 3) := by
  omega

/-- A century has twenty-five spans of four years, of which the last may lack its last day. -/
theorem span_bounds {day : Nat} (within : day ≤ 36524) :
    day / 1461 ≤ 24 ∧ 1461 * (day / 1461) ≤ day ∧ day - 1461 * (day / 1461) ≤ 1460 ∧
      (day - 1461 * (day / 1461) = 1460 → day / 1461 = 24 → day = 36524) := by
  omega

/-- A span has four years, of which the last has a day more than the others. -/
theorem year_bounds {day : Nat} (within : day ≤ 1460) :
    min (day / 365) 3 ≤ 3 ∧ 365 * min (day / 365) 3 ≤ day ∧ day - 365 * min (day / 365) 3 ≤ 365 ∧
      (day - 365 * min (day / 365) 3 = 365 → min (day / 365) 3 = 3 ∧ day = 1460) := by
  omega

/-- The days before a year of a cycle are those of the centuries, spans and years before it. -/
theorem firstOfMarch_eq (cycle : Int) {century span year : Nat} (centuries : century ≤ 3)
    (spans : span ≤ 24) (years : year ≤ 3) :
    firstOfMarch (cycle * 400 + (100 * century + 4 * span + year : Nat)) =
      cycle * 146097 + (36524 * century + 1461 * span + 365 * year : Nat) - 719468 := by
  unfold firstOfMarch
  omega

/-- The February of the last year of a span lies in a leap year, unless it ends one of the first
three centuries of a cycle. -/
theorem isLeapYear_of_span (cycle : Int) {century span : Nat} (spans : span ≤ 24)
    (last : span = 24 → century = 3) :
    isLeapYear (cycle * 400 + (100 * century + 4 * span + 3 : Nat) + 1) = true := by
  simp only [isLeapYear, Bool.and_eq_true, Bool.or_eq_true, beq_iff_eq, bne_iff_ne]
  omega

/-- The date of a day number is a day of a year that begins in March. The year has as many days, and
the day its number. -/
theorem ofDayNumber_eq_ofMarch (number : Int) :
    ∃ (year : Int) (day : Nat), day ≤ 365 ∧ (day = 365 → isLeapYear (year + 1) = true) ∧
      firstOfMarch year + day = number ∧
      ofDayNumber number =
        ofMarch year ((5 * day + 2) / 153) (day - daysBefore ((5 * day + 2) / 153)) := by
  have within : ((number + 719468) % 146097).toNat < 146097 := by omega
  unfold ofDayNumber
  simp only
  obtain ⟨centuries, centuryBegun, centuryLeft, lastCentury⟩ := century_bounds within
  obtain ⟨spans, spanBegun, spanLeft, lastSpan⟩ := span_bounds centuryLeft
  obtain ⟨years, yearBegun, yearLeft, lastYear⟩ := year_bounds spanLeft
  -- From here on only the bounds of the parts matter, not how they were found.
  generalize min (((number + 719468) % 146097).toNat / 36524) 3 = century at *
  generalize (((number + 719468) % 146097).toNat - 36524 * century) / 1461 = span at *
  generalize min ((((number + 719468) % 146097).toNat - 36524 * century - 1461 * span) / 365) 3 =
    year at *
  refine ⟨(number + 719468) / 146097 * 400 + (100 * century + 4 * span + year : Nat), _, yearLeft,
    ?_, ?_, ?_⟩
  · intro leapDay
    obtain ⟨rfl, final⟩ := lastYear leapDay
    exact isLeapYear_of_span _ spans fun twentyFour => lastCentury (lastSpan final twentyFour)
  · rw [firstOfMarch_eq _ centuries spans years]
    omega
  · generalize ((number + 719468) % 146097).toNat - 36524 * century - 1461 * span - 365 * year =
      day at *
    unfold ofMarch daysBefore
    by_cases early : (5 * day + 2) / 153 < 10
    · have late : ¬ (5 * day + 2) / 153 + 3 ≤ 2 := by omega
      simp only [if_pos early, if_neg late]
    · have next : (5 * day + 2) / 153 - 9 ≤ 2 := by omega
      simp only [if_neg early, if_pos next]

/-- The date of a day number has that day number. -/
theorem dayNumber_ofDayNumber (number : Int) : (ofDayNumber number).dayNumber = number := by
  obtain ⟨year, day, within, _, counted, found⟩ := ofDayNumber_eq_ofMarch number
  obtain ⟨named, begun, _⟩ := month_bounds within
  rw [found, dayNumber_ofMarch year named, Nat.add_sub_cancel' begun, counted]

/-- The date of a day number exists. -/
theorem exists_ofDayNumber (number : Int) : (ofDayNumber number).exists? = true := by
  obtain ⟨year, day, within, leap, _, found⟩ := ofDayNumber_eq_ofMarch number
  obtain ⟨named, begun, ended⟩ := month_bounds within
  rw [found]
  apply exists_ofMarch named
  · rwa [Nat.add_sub_cancel' begun]
  · intro february
    have before : daysBefore 11 = 337 := rfl
    rw [february, before] at begun ⊢
    by_cases last : day = 365
    · exact .inr ⟨by omega, leap last⟩
    · exact .inl (by omega)

/-- No month has more than thirty-one days. -/
theorem daysInMonth_le (year : Int) (month : Nat) : daysInMonth year month ≤ 31 := by
  unfold daysInMonth
  split <;> (try split) <;> omega

/-- Behind the twelfth month there is none. -/
theorem daysInMonth_eq_zero (year : Int) {month : Nat} (behind : 12 < month) :
    daysInMonth year month = 0 := by
  unfold daysInMonth
  split <;> omega

/-- A date that exists has one of twelve months and one of thirty-one days. -/
theorem bounds_of_exists {date : Date} (there : date.exists? = true) :
    date.month ≤ 12 ∧ date.day ≤ 31 := by
  simp only [exists?, decide_eq_true_eq] at there
  obtain ⟨first, last⟩ := there
  constructor
  · apply Nat.le_of_not_lt
    intro behind
    rw [daysInMonth_eq_zero date.year behind] at last
    omega
  · exact Nat.le_trans last (daysInMonth_le date.year date.month)

end DocStore.Date
