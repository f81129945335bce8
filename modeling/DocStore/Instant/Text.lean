import DocStore.Instant
import DocStore.Value.Path

/-!
# Times as text

Instants are kept as RFC 3339 text in UTC: date, `T`, time of day, the shortest of no, three, six
or nine decimals that is exact, and `Z`. A year outside of four digits carries a sign.

Reading is more lenient than writing. Numbers may have fewer digits, blanks may stand between the
parts, a blank or a small `t` may separate date and time, `UTC` may stand for `Z`, an offset from
UTC may be given, and decimals beyond the ninth are dropped. A second of sixty is a leap second.
-/

namespace DocStore

namespace Instant

/-- The decimal digits of a number, with zeros in front up to a width. -/
def digitsOf (width number : Nat) : List Char :=
  List.leftpad width '0' (Nat.toDigits 10 number)

/-- A year of four digits, or with a sign in front if it needs one. -/
def yearText (year : Int) : List Char :=
  if 0 ≤ year ∧ year ≤ 9999 then digitsOf 4 year.toNat
  else (if year < 0 then '-' else '+') :: digitsOf 4 year.natAbs

/-- The decimals of a second, with the point in front; none at a whole second. -/
def fractionText (nanos : Nat) : List Char :=
  if nanos = 0 then []
  else if nanos % 1000000 = 0 then '.' :: digitsOf 3 (nanos / 1000000)
  else if nanos % 1000 = 0 then '.' :: digitsOf 6 (nanos / 1000)
  else '.' :: digitsOf 9 nanos

/-- An instant as text. -/
def text (instant : Instant) : String :=
  let date := Date.ofDayNumber (instant.seconds / secondsPerDay)
  let second := (instant.seconds % secondsPerDay).toNat
  let leap := instant.nanos / nanosPerSecond
  String.ofList (
    yearText date.year ++ ['-'] ++ digitsOf 2 date.month ++ ['-'] ++ digitsOf 2 date.day ++ ['T'] ++
    digitsOf 2 (second / 3600) ++ [':'] ++ digitsOf 2 (second / 60 % 60) ++ [':'] ++
    digitsOf 2 (second % 60 + leap) ++ fractionText (instant.nanos % nanosPerSecond) ++ ['Z'])

/-- True exactly for the characters that are white space. -/
def isBlank (letter : Char) : Bool :=
  let code := letter.toNat
  decide (9 ≤ code ∧ code ≤ 13 ∨ code = 0x20 ∨ code = 0x85 ∨ code = 0xA0 ∨ code = 0x1680 ∨
    0x2000 ≤ code ∧ code ≤ 0x200A ∨ code = 0x2028 ∨ code = 0x2029 ∨ code = 0x202F ∨
    code = 0x205F ∨ code = 0x3000)

/-- A text without the blanks at its front. -/
def skipBlanks (letters : List Char) : List Char := letters.dropWhile isBlank

/-- Reads a number of at least one digit and takes no more digits than the width. -/
def readDigits (width : Nat) (letters : List Char) : Option (Nat × List Char) :=
  let digits := (letters.take width).takeWhile isDigit
  if digits.isEmpty then none else some (digitsValue digits, letters.drop digits.length)

/-- Reads a number of one or two digits behind blanks. -/
def readPair (letters : List Char) : Option (Nat × List Char) :=
  readDigits 2 (skipBlanks letters)

/-- Reads a year behind blanks: up to four digits, or a sign and any number of digits. -/
def readYear (letters : List Char) : Option (Int × List Char) :=
  match skipBlanks letters with
  | '-' :: rest => (readDigits rest.length rest).map fun (year, rest) => (-(year : Int), rest)
  | '+' :: rest => (readDigits rest.length rest).map fun (year, rest) => ((year : Int), rest)
  | plain => (readDigits 4 plain).map fun (year, rest) => ((year : Int), rest)

/-- Reads a mark behind blanks. -/
def readMark (mark : Char) (letters : List Char) : Option (List Char) :=
  match skipBlanks letters with
  | letter :: rest => if letter = mark then some rest else none
  | [] => none

/-- Reads what separates date and time. -/
def readSeparator : List Char → Option (List Char)
  | 'T' :: rest | 't' :: rest | ' ' :: rest => some rest
  | _ => none

/-- Reads the decimals of a second, if there is a point, as nanoseconds. -/
def readFraction : List Char → Option (Nat × List Char)
  | '.' :: rest =>
      match readDigits 9 rest with
      | none => none
      | some (value, after) =>
          some (value * Nat.pow 10 (9 - (rest.length - after.length)), after.dropWhile isDigit)
  | letters => some (0, letters)

/-- Reads an offset from UTC in hours and minutes, in seconds. Both have two digits, and colons or
blanks may stand between them. -/
def readOffset : List Char → Option (Int × List Char)
  | sign :: tens :: ones :: rest =>
      if (sign = '+' ∨ sign = '-' ∨ sign = '−') ∧ isDigit tens ∧ isDigit ones then
        match rest.dropWhile fun letter => letter == ':' || isBlank letter with
        | minuteTens :: minuteOnes :: rest =>
            if isDigit minuteTens ∧ isDigit minuteOnes ∧ minuteTens ≤ '5' then
              let minutes := digitsValue [tens, ones] * 60 + digitsValue [minuteTens, minuteOnes]
              some ((if sign = '+' then 60 else -60) * (minutes : Int), rest)
            else none
        | _ => none
      else none
  | _ => none

/-- Reads the zone of a time: `Z`, `UTC` or an offset, the letters in either case. -/
def readZone (letters : List Char) : Option (Int × List Char) :=
  match letters with
  | 'Z' :: rest | 'z' :: rest => some (0, rest)
  | first :: second :: third :: rest =>
      if first.toUpper = 'U' ∧ second.toUpper = 'T' ∧ third.toUpper = 'C' then some (0, rest)
      else readOffset letters
  | _ => none

/-- The instant of a date and time of day at an offset from UTC. There is none when a part is out
of its range, or the instant or its local date are not representable. -/
def ofParts? (date : Date) (hour minute second nanos : Nat) (offset : Int) : Option Instant :=
  if ¬ date.exists? ∨ date.year < firstYear ∨ lastYear < date.year then none
  else if 23 < hour ∨ 59 < minute ∨ 60 < second then none
  else if offset ≤ -secondsPerDay ∨ secondsPerDay ≤ offset then none
  else
    let leap := second / 60
    let localSeconds := date.dayNumber * secondsPerDay + (hour * 3600 + minute * 60 + (second - leap) : Nat)
    let instant : Instant := ⟨localSeconds - offset, nanos + leap * nanosPerSecond⟩
    if instant.isRepresentable then some instant else none

/-- The instant that a text names. -/
def read? (source : String) : Option Instant := do
  let (year, rest) ← readYear source.toList
  let rest ← readMark '-' rest
  let (month, rest) ← readPair rest
  let rest ← readMark '-' rest
  let (day, rest) ← readPair rest
  let rest ← readSeparator rest
  let (hour, rest) ← readPair rest
  let rest ← readMark ':' rest
  let (minute, rest) ← readPair rest
  let rest ← readMark ':' rest
  let (second, rest) ← readPair rest
  let (nanos, rest) ← readFraction rest
  let (offset, rest) ← readZone (skipBlanks rest)
  if (skipBlanks rest).isEmpty then ofParts? ⟨year, month, day⟩ hour minute second nanos offset
  else none

end Instant

end DocStore
