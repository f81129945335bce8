import DocStore.Calendar

/-!
# Instants

A point in time: whole seconds since the beginning of 1970 and nanoseconds behind them. A
nanosecond count of a thousand million or more belongs to a leap second, which has the number of
the second before it.
-/

namespace DocStore

/-- A point in time. -/
structure Instant where
  seconds : Int
  nanos : Nat
deriving DecidableEq, Repr

namespace Instant

/-- The nanoseconds of a second. -/
def nanosPerSecond : Nat := 1000000000

/-- The seconds of a day. -/
def secondsPerDay : Nat := 86400

/-- The first year of the representable range. -/
def firstYear : Int := -262143

/-- The last year of the representable range. -/
def lastYear : Int := 262142

/-- True exactly when the date of an instant lies in the representable years. -/
def isRepresentable (instant : Instant) : Bool :=
  let year := (Date.ofDayNumber (instant.seconds / secondsPerDay)).year
  decide (firstYear ≤ year ∧ year ≤ lastYear)

/-- True when the left instant is not before the right one. -/
def notBefore (left right : Instant) : Bool :=
  decide (right.seconds < left.seconds ∨
    (right.seconds = left.seconds ∧ right.nanos ≤ left.nanos))

end Instant

end DocStore
