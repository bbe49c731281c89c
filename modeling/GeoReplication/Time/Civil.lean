/-!
# Time/Civil — days and calendar dates

The Gregorian calendar, extended to all years, as a count of days from the first of January 1970.
`Date.day` counts, `Date.ofDay` reads the count back; the year is found from an estimate that is off
by at most one, and the month from a division that follows the lengths of the months.
-/

namespace GeoReplication.Time

/-- Every fourth year is a leap year, but of the full centuries only every fourth. -/
def isLeap (year : Int) : Bool := year % 4 == 0 && (year % 100 != 0 || year % 400 == 0)

/-- Days from the first of January of year 0 to the first of January of `year`. -/
def yearStart (year : Int) : Int :=
  365 * year + (year + 3) / 4 - (year + 99) / 100 + (year + 399) / 400

/-- Days by which the even spread of `(367 · month − 362) / 12` runs ahead after February. -/
def februaryGap (leap : Bool) : Nat := if leap then 1 else 2

/-- Days of the year before the first of `month`; the months are numbered from 1. -/
def monthStart (leap : Bool) (month : Nat) : Nat :=
  (367 * month - 362) / 12 - (if month ≤ 2 then 0 else februaryGap leap)

/-- Number of days of `month`. -/
def monthLength (leap : Bool) (month : Nat) : Nat :=
  monthStart leap (month + 1) - monthStart leap month

/-- The month of a day of the year, days being counted from 0. -/
def monthOf (leap : Bool) (dayOfYear : Nat) : Nat :=
  (12 * (dayOfYear + if dayOfYear + februaryGap leap < 61 then 0 else februaryGap leap) + 373) / 367

/-- A date of the Gregorian calendar. -/
structure Date where
  year : Int
  month : Nat
  day : Nat
deriving DecidableEq, Repr

/-- The first of January 1970, counted from the first of January of year 0. -/
def epochDay : Int := 719528

namespace Date

/-- The month exists and has such a day. -/
def isValid (d : Date) : Bool :=
  1 ≤ d.month && d.month ≤ 12 && 1 ≤ d.day && d.day ≤ monthLength (isLeap d.year) d.month

/-- Days from the first of January 1970. -/
def count (d : Date) : Int :=
  yearStart d.year + (monthStart (isLeap d.year) d.month + (d.day - 1) : Nat) - epochDay

/-- The year of a day counted from the first of January of year 0. -/
def yearOf (day : Int) : Int :=
  let guess := day * 400 / 146097
  if day < yearStart guess then guess - 1
  else if yearStart (guess + 1) ≤ day then guess + 1
  else guess

/-- The date that is `day` days after the first of January 1970. -/
def ofCount (day : Int) : Date :=
  let fromZero := day + epochDay
  let year := yearOf fromZero
  let dayOfYear := (fromZero - yearStart year).toNat
  let month := monthOf (isLeap year) dayOfYear
  ⟨year, month, dayOfYear - monthStart (isLeap year) month + 1⟩

end Date

end GeoReplication.Time
