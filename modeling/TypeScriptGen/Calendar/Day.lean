/-!
# Days of the calendar

Days of the Gregorian calendar are counted from 1 January of year 1, which is
day zero. `Day.number` counts, and `Day.ofNumber` finds the day with a given
count; years end at 9999.
-/

namespace TypeScriptGen.Calendar

structure Day where
  year : Nat
  month : Nat
  day : Nat
deriving DecidableEq

def isLeapYear (year : Nat) : Bool :=
  year % 4 == 0 && (year % 100 != 0 || year % 400 == 0)

def monthLengths (year : Nat) : List Nat :=
  [31, if isLeapYear year then 29 else 28, 31, 30, 31, 30, 31, 31, 30, 31, 30, 31]

def monthLength (year month : Nat) : Nat := (monthLengths year).getD (month - 1) 0

/-- The days of all years before a year. -/
def daysBefore (year : Nat) : Nat :=
  365 * (year - 1) + (year - 1) / 4 - (year - 1) / 100 + (year - 1) / 400

def lastYear : Nat := 9999

def Day.isValid (date : Day) : Bool :=
  1 ≤ date.year && date.year ≤ lastYear && 1 ≤ date.month && date.month ≤ 12 &&
    1 ≤ date.day && date.day ≤ monthLength date.year date.month

def Day.number (date : Day) : Nat :=
  let months := (monthLengths date.year).take (date.month - 1)
  daysBefore date.year + months.foldl Nat.add 0 + (date.day - 1)

/-- The year that holds the day with a count. The guess from the average length of a year is
off by at most one. -/
def yearOf (number : Nat) : Nat :=
  let guess := number * 400 / 146097 + 1
  if number < daysBefore guess then guess - 1
  else if daysBefore (guess + 1) ≤ number then guess + 1
  else guess

/-- Counts off whole months from a number of days. -/
def monthAndDay : Nat → List Nat → Nat → Nat × Nat
  | month, [], rest => (month, rest + 1)
  | month, length :: lengths, rest =>
      if rest < length then (month, rest + 1) else monthAndDay (month + 1) lengths (rest - length)

def Day.ofNumber (number : Nat) : Day :=
  let year := yearOf number
  let (month, day) := monthAndDay 1 (monthLengths year) (number - daysBefore year)
  ⟨year, month, day⟩

end TypeScriptGen.Calendar
