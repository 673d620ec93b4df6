/-! Days of the proleptic Gregorian calendar, counted from the first of January 1970. -/

namespace ContentApi

/-- A day of the calendar, whose month and day count from one. -/
structure CalendarDate where
  /-- The year, where the year before the first is zero. -/
  year : Int
  /-- The month. -/
  month : Nat
  /-- The day of the month. -/
  day : Nat
  deriving DecidableEq

/-- Whether a year has a twenty-ninth of February. -/
def isLeapYear (year : Int) : Bool :=
  year % 4 = 0 && (year % 100 ≠ 0 || year % 400 = 0)

/-- How many days a month has. -/
def daysInMonth (year : Int) (month : Nat) : Nat :=
  if month = 2 then (if isLeapYear year then 29 else 28)
  else if month = 4 ∨ month = 6 ∨ month = 9 ∨ month = 11 then 30
  else 31

/-- Whether a date is one of the calendar. -/
def CalendarDate.IsValid (date : CalendarDate) : Prop :=
  1 ≤ date.month ∧ date.month ≤ 12 ∧ 1 ≤ date.day ∧ date.day ≤ daysInMonth date.year date.month

instance (date : CalendarDate) : Decidable date.IsValid :=
  inferInstanceAs (Decidable (_ ∧ _ ∧ _ ∧ _))

/-- The number of days from the first of January 1970 to a date. -/
def CalendarDate.toDays (date : CalendarDate) : Int :=
  -- Years are taken from March on, so that the leap day is the last of its year.
  let year := if date.month ≤ 2 then date.year - 1 else date.year
  let cycle := year / 400
  let yearOfCycle := year % 400
  let month := (date.month + 9) % 12
  let dayOfYear : Int := (153 * month + 2) / 5 + date.day - 1
  cycle * 146097 + yearOfCycle * 365 + yearOfCycle / 4 - yearOfCycle / 100 + dayOfYear - 719468

/-- The date a number of days after the first of January 1970. -/
def CalendarDate.ofDays (days : Int) : CalendarDate :=
  let shifted := days + 719468
  let cycle := shifted / 146097
  let dayOfCycle := (shifted % 146097).toNat
  -- The days of the cycle less its leap days are years of 365 days each.
  let yearOfCycle :=
    (dayOfCycle - dayOfCycle / 1460 + dayOfCycle / 36524 - dayOfCycle / 146096) / 365
  let dayOfYear := dayOfCycle - (365 * yearOfCycle + yearOfCycle / 4 - yearOfCycle / 100)
  -- Five months from March on always have 153 days.
  let month := (5 * dayOfYear + 2) / 153
  let year : Int := cycle * 400 + yearOfCycle
  { year := if month < 10 then year else year + 1
    month := if month < 10 then month + 3 else month - 9
    day := dayOfYear - (153 * month + 2) / 5 + 1 }

end ContentApi
