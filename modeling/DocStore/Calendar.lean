/-!
# The calendar

Dates of the Gregorian calendar, extended without end to both sides, and their numbering by days
from the first of January 1970. The year is taken to begin in March, so that the leap day is its
last; four hundred such years are a cycle of 146097 days.
-/

namespace DocStore

/-- A date by year, month from one and day from one. -/
structure Date where
  year : Int
  month : Nat
  day : Nat
deriving DecidableEq, Repr

namespace Date

/-- True exactly for the years with a leap day. -/
def isLeapYear (year : Int) : Bool :=
  year % 4 == 0 && (year % 100 != 0 || year % 400 == 0)

/-- The number of days of a month; a number that names no month has none. -/
def daysInMonth (year : Int) (month : Nat) : Nat :=
  match month with
  | 1 | 3 | 5 | 7 | 8 | 10 | 12 => 31
  | 4 | 6 | 9 | 11 => 30
  | 2 => if isLeapYear year then 29 else 28
  | _ => 0

/-- True exactly for the dates that exist. -/
def exists? (date : Date) : Bool :=
  decide (1 ≤ date.day ∧ date.day ≤ daysInMonth date.year date.month)

/-- The number of days between a date and the first of January 1970. -/
def dayNumber (date : Date) : Int :=
  let year := if date.month ≤ 2 then date.year - 1 else date.year
  let yearOfCycle := year % 400
  let monthFromMarch := (date.month + 9) % 12
  let dayOfYear := (153 * monthFromMarch + 2) / 5 + (date.day - 1)
  year / 400 * 146097 +
    (yearOfCycle * 365 + yearOfCycle / 4 - yearOfCycle / 100 + dayOfYear) - 719468

/-- The date of a day number. A cycle is cut into centuries, a century into spans of four years
and a span into years; the last century of a cycle and the last year of a span are a day
longer. -/
def ofDayNumber (number : Int) : Date :=
  let shifted := number + 719468
  let dayOfCycle := (shifted % 146097).toNat
  let century := min (dayOfCycle / 36524) 3
  let dayOfCentury := dayOfCycle - 36524 * century
  let span := dayOfCentury / 1461
  let dayOfSpan := dayOfCentury - 1461 * span
  let yearOfSpan := min (dayOfSpan / 365) 3
  let dayOfYear := dayOfSpan - 365 * yearOfSpan
  let monthFromMarch := (5 * dayOfYear + 2) / 153
  let day := dayOfYear - (153 * monthFromMarch + 2) / 5 + 1
  let month := if monthFromMarch < 10 then monthFromMarch + 3 else monthFromMarch - 9
  let year := shifted / 146097 * 400 + ((100 * century + 4 * span + yearOfSpan : Nat) : Int)
  ⟨if month ≤ 2 then year + 1 else year, month, day⟩

example : (⟨1970, 1, 1⟩ : Date).dayNumber = 0 ∧ (⟨2000, 2, 29⟩ : Date).dayNumber = 11016 ∧
    (⟨0, 1, 1⟩ : Date).dayNumber = -719528 := by
  decide

example : ofDayNumber 11016 = ⟨2000, 2, 29⟩ ∧ ofDayNumber (-1) = ⟨1969, 12, 31⟩ := by
  decide

end Date

end DocStore
