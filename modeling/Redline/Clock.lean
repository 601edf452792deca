import Redline.Binary64

/-!
# Time

A moment is a number of microseconds since the start of 1970. Its text is the date and the time of
day in UTC; its number of milliseconds is taken from the seconds as a floating-point number.
-/

namespace Redline

/-- A moment, in microseconds since the start of 1970. -/
structure Moment where
  microseconds : Int
  deriving DecidableEq, Repr, Inhabited

namespace Moment

/-- A number with zeros before it up to a width. -/
def padded (width n : Nat) : String :=
  let digits := Text.Numeral.digitsOf n
  String.ofList (List.replicate (width - digits.length) '0' ++ digits)

/-- The year, month and day of a number of days since the start of 1970. Years are counted from
March, so that a leap day ends one; `era` is a span of 400 years. -/
def civil (days : Int) : Int × Nat × Nat :=
  let shifted := days + 719468
  let era := shifted / 146097
  let dayOfEra := (shifted % 146097).toNat
  let yearOfEra := (dayOfEra - dayOfEra / 1460 + dayOfEra / 36524 - dayOfEra / 146096) / 365
  let dayOfYear := dayOfEra - (365 * yearOfEra + yearOfEra / 4 - yearOfEra / 100)
  let shiftedMonth := (5 * dayOfYear + 2) / 153
  let day := dayOfYear - (153 * shiftedMonth + 2) / 5 + 1
  let month := if shiftedMonth < 10 then shiftedMonth + 3 else shiftedMonth - 9
  let year := yearOfEra + era * 400 + (if month ≤ 2 then 1 else 0)
  (year, month, day)

/-- Date and time of day in UTC; the fraction of the second is left out when it is zero. -/
def text (t : Moment) : String :=
  let seconds := t.microseconds / 1000000
  let fraction := (t.microseconds % 1000000).toNat
  let (year, month, day) := civil (seconds / 86400)
  let second := (seconds % 86400).toNat
  padded 4 year.toNat ++ "-" ++ padded 2 month ++ "-" ++ padded 2 day ++ "T"
    ++ padded 2 (second / 3600) ++ ":" ++ padded 2 (second / 60 % 60) ++ ":"
    ++ padded 2 (second % 60)
    ++ (if fraction = 0 then "" else "." ++ padded 6 fraction) ++ "Z"

/-- Whole milliseconds, from the seconds as the nearest floating-point number. -/
def milliseconds (t : Moment) : Int :=
  ((((Binary64.ofInt t.microseconds).divNat 1000000).mulNat 1000).truncate?).getD 0

end Moment

end Redline
