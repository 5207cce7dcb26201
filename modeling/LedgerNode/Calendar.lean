import LedgerNode.Text.Numeral

/-!
# Dates

Log lines are stamped with the time of day in the Gregorian calendar, without time zones.

- `Date`: a year, a month and a day.
- `Date.ofDays`: the date so many days after the first of January 1970.
- `Calendar.stamp`: a point in time as text.

The calendar repeats itself every 146097 days, which are four hundred years. Years are taken to
begin in March, so that the leap day is the last of its year.
-/

namespace LedgerNode

/-- A date. -/
structure Date where
  year : UInt32
  month : Nat
  day : Nat
deriving DecidableEq, Repr

namespace Calendar

/-- The days of four hundred years. -/
def eraDays : Nat := 146097

/-- The days from the first of March of year zero to the first of January 1970. -/
def epoch : Int64 := 719468

/-- The year of its era in which a day of the era lies. -/
def yearOfEra (dayOfEra : Nat) : Nat :=
  (dayOfEra - dayOfEra / 1460 + dayOfEra / 36524 - dayOfEra / 146096) / 365

/-- The day of its year that a day of an era is. -/
def dayOfYear (dayOfEra : Nat) : Nat :=
  let year := yearOfEra dayOfEra
  dayOfEra - (365 * year + year / 4 - year / 100)

/-- The month in which a day of the year lies, counted from March. -/
def monthOfYear (dayOfYear : Nat) : Nat :=
  (5 * dayOfYear + 2) / 153

/-- The day of its month that a day of the year is, counted from one. -/
def dayOfMonth (dayOfYear : Nat) : Nat :=
  dayOfYear - (153 * monthOfYear dayOfYear + 2) / 5 + 1

end Calendar

open Calendar in
/-- The date a number of days after the first of January 1970. -/
def Date.ofDays (days : UInt64) : Date :=
  let n := (days.toInt64 + epoch).toInt
  let dayOfEra := (n % eraDays).toNat
  let year := yearOfEra dayOfEra + n / eraDays * 400
  let dayOfYear := dayOfYear dayOfEra
  let monthOfYear := monthOfYear dayOfYear
  let month := if monthOfYear < 10 then monthOfYear + 3 else monthOfYear - 9
  { year := UInt32.ofInt (if month ≤ 2 then year + 1 else year)
    month
    day := dayOfMonth dayOfYear }

/-- A point in time, in milliseconds after the beginning of 1970, as text: date, time, and a blank
behind. -/
def Calendar.stamp (milliseconds : Nat) : String :=
  let seconds := milliseconds / 1000
  let date := Date.ofDays (UInt64.ofNat (seconds / 86400))
  let digits (width n : Nat) := Text.padLeft '0' width (Text.numeral n)
  digits 4 date.year.toNat ++ "-" ++ digits 2 date.month ++ "-" ++ digits 2 date.day ++ " " ++
    digits 2 (seconds / 3600 % 24) ++ ":" ++ digits 2 (seconds / 60 % 60) ++ ":" ++
    digits 2 (seconds % 60) ++ "." ++ digits 3 (milliseconds % 1000) ++ " "

end LedgerNode
