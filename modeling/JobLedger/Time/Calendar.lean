/-!
# The Gregorian calendar

Days are counted from the first of January of year 0 of the proleptic Gregorian calendar. A year
begins `daysBeforeYear` days after that, and a month begins the lengths of the earlier months of
its year later. A day count determines its date, and a date its day count.
-/

namespace JobLedger.Time

/-- A year has a 29th of February. -/
def isLeap (year : Nat) : Bool := year % 4 == 0 && (year % 100 != 0 || year % 400 == 0)

/-- The number of days between the first of January of year 0 and that of a year. -/
def daysBeforeYear (year : Nat) : Nat :=
  365 * year + (year + 3) / 4 - (year + 99) / 100 + (year + 399) / 400

/-- The lengths of the twelve months. -/
def monthLengths (leap : Bool) : List Nat :=
  [31, if leap then 29 else 28, 31, 30, 31, 30, 31, 31, 30, 31, 30, 31]

/-- The number of days of a month, zero if there is no such month. -/
def daysInMonth (year month : Nat) : Nat :=
  if month = 0 then 0 else (monthLengths (isLeap year))[month - 1]?.getD 0

/-- A day of the calendar; months and days are counted from one. -/
structure Date where
  year : Nat
  month : Nat
  day : Nat
  deriving DecidableEq, Repr

/-- The number of days of a year before a month. -/
def daysBeforeMonth (leap : Bool) (month : Nat) : Nat :=
  ((monthLengths leap).take (month - 1)).foldl (· + ·) 0

namespace Date

/-- The calendar has this date. -/
def Valid (date : Date) : Prop :=
  1 ≤ date.month ∧ date.month ≤ 12 ∧ 1 ≤ date.day ∧ date.day ≤ daysInMonth date.year date.month

instance (date : Date) : Decidable date.Valid := inferInstanceAs (Decidable (_ ∧ _))

/-- The number of days between the first of January of year 0 and a date. -/
def dayCount (date : Date) : Nat :=
  daysBeforeYear date.year + daysBeforeMonth (isLeap date.year) date.month + (date.day - 1)

end Date

/-- The year that holds the day `days` days after the first of January of year 0. -/
def yearOfDay (days : Nat) : Nat :=
  let guess := 400 * days / 146097
  if daysBeforeYear (guess + 1) ≤ days then guess + 1
  else if daysBeforeYear guess ≤ days then guess
  else guess - 1

/-- The month, counted from `month`, and the day of the month that a day of the year falls on. -/
def monthAndDay (month : Nat) : List Nat → Nat → Nat × Nat
  | [], dayOfYear => (month, dayOfYear + 1)
  | length :: rest, dayOfYear =>
    if dayOfYear < length then (month, dayOfYear + 1)
    else monthAndDay (month + 1) rest (dayOfYear - length)

/-- The date `days` days after the first of January of year 0. -/
def Date.ofDayCount (days : Nat) : Date :=
  let year := yearOfDay days
  let monthDay := monthAndDay 1 (monthLengths (isLeap year)) (days - daysBeforeYear year)
  ⟨year, monthDay.1, monthDay.2⟩

/-- The day count of the first of January 1970. -/
def epochDay : Nat := 719528

end JobLedger.Time
