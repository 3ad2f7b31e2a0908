/-!
# The calendar

Days are counted from the first of January 1970, in both directions. For the count a year begins in
March, which puts the leap day at its end: the months then follow one pattern of lengths, and a
cycle of 400 years has 146097 days. Both directions of the count are exact for every year.
-/

namespace Registrar.Time

/-- A date of the Gregorian calendar, also before it was introduced. -/
structure Date where
  year : Int
  month : Nat
  day : Nat
  deriving DecidableEq, Repr

/-- Whether a year has a leap day. -/
def isLeap (year : Int) : Bool :=
  year % 4 = 0 && (year % 100 ≠ 0 || year % 400 = 0)

/-- How many days a month has. -/
def daysInMonth (year : Int) (month : Nat) : Nat :=
  if month = 2 then if isLeap year then 29 else 28
  else if month = 4 ∨ month = 6 ∨ month = 9 ∨ month = 11 then 30
  else 31

/-- Whether the calendar has the date. -/
def Date.isValid (d : Date) : Bool :=
  1 ≤ d.month && d.month ≤ 12 && 1 ≤ d.day && d.day ≤ daysInMonth d.year d.month

/-- Days from the start of a cycle of 400 years to the start of its year `n`. -/
def daysBeforeYear (n : Nat) : Nat :=
  365 * n + n / 4 - n / 100

/-- Days from the first of March to the start of the month that is `n` months later. -/
def daysBeforeMonth (n : Nat) : Nat :=
  (153 * n + 2) / 5

/-- The first of March of the year 0 is this many days before the first of January 1970. -/
def epochShift : Int := 719468

/-- The number of the day. -/
def Date.toDays (d : Date) : Int :=
  let year := if d.month ≤ 2 then d.year - 1 else d.year
  let inCycle := (year % 400).toNat
  let inYear := daysBeforeMonth ((d.month + 9) % 12) + (d.day - 1)
  year / 400 * 146097 + (daysBeforeYear inCycle + inYear : Nat) - epochShift

/-- The date of the day of this number. -/
def Date.ofDays (n : Int) : Date :=
  let n := n + epochShift
  let inCycle := (n % 146097).toNat
  let year := (inCycle - inCycle / 1460 + inCycle / 36524 - inCycle / 146096) / 365
  let inYear := inCycle - daysBeforeYear year
  let month := (5 * inYear + 2) / 153
  let day := inYear - daysBeforeMonth month + 1
  if month < 10 then ⟨n / 146097 * 400 + year, month + 3, day⟩
  else ⟨n / 146097 * 400 + year + 1, month - 9, day⟩

end Registrar.Time
