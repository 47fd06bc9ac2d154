import TypeScriptGen.Calendar.Day
import TypeScriptGen.Decimal.Whole

/-!
# Moments

A moment is a day and a time of day to the microsecond, with or without an
offset from UTC. Without an offset it counts as UTC. `Moment.instant` is the
number of microseconds from the start of year 1 in UTC, and `Moment.stamp`
writes the instant with milliseconds and a `Z`.
-/

namespace TypeScriptGen.Calendar

structure Moment where
  date : Day
  hour : Nat
  minute : Nat
  second : Nat
  microsecond : Nat
  /-- Microseconds to the east of UTC. -/
  offset : Option Int
deriving DecidableEq

namespace Moment

def microsPerSecond : Nat := 1000000

def microsPerDay : Nat := 86400 * microsPerSecond

/-- Microseconds since midnight. -/
def timeOfDay (moment : Moment) : Nat :=
  (moment.hour * 3600 + moment.minute * 60 + moment.second) * microsPerSecond + moment.microsecond

/-- Microseconds from the start of year 1 on the moment's own clock. -/
def clock (moment : Moment) : Nat := moment.date.number * microsPerDay + moment.timeOfDay

def instant (moment : Moment) : Int := moment.clock - moment.offset.getD 0

/-- The first microsecond after the last year. -/
def endOfTime : Nat := daysBefore (lastYear + 1) * microsPerDay

def ofTimeOfDay (date : Day) (micros : Nat) (offset : Option Int) : Moment :=
  let seconds := micros / microsPerSecond
  ⟨date, seconds / 3600, seconds / 60 % 60, seconds % 60, micros % microsPerSecond, offset⟩

/-- The moment in UTC at an instant between the start of year 1 and the end of the last year. -/
def ofInstant? (instant : Int) : Option Moment :=
  if 0 ≤ instant && instant < endOfTime then
    let micros := instant.toNat
    some (ofTimeOfDay (Day.ofNumber (micros / microsPerDay)) (micros % microsPerDay) (some 0))
  else none

def isValid (moment : Moment) : Bool :=
  moment.date.isValid && moment.hour < 24 && moment.minute < 60 && moment.second < 60 &&
    moment.microsecond < microsPerSecond &&
    (match moment.offset with
      | none => true
      | some offset => offset.natAbs < microsPerDay)

def dateText (moment : Moment) : Text :=
  Decimal.padded 4 moment.date.year ++ '-' :: Decimal.padded 2 moment.date.month ++
    '-' :: Decimal.padded 2 moment.date.day

def minuteText (hour minute : Nat) : Text :=
  Decimal.padded 2 hour ++ ':' :: Decimal.padded 2 minute

/-- Hours, minutes and seconds, with six further digits unless they are zero. -/
def clockText (micros : Nat) (always : Bool) : Text :=
  let seconds := micros / microsPerSecond
  let rest := micros % microsPerSecond
  let fine := if rest = 0 then [] else '.' :: Decimal.padded 6 rest
  minuteText (seconds / 3600) (seconds / 60 % 60) ++
    (if always || seconds % 60 != 0 || rest != 0 then
      ':' :: Decimal.padded 2 (seconds % 60) ++ fine
    else [])

def offsetText : Option Int → Text
  | none => []
  | some offset => (if offset < 0 then '-' else '+') :: clockText offset.natAbs false

/-- The date and the time of day around a separator, with the offset behind. -/
def isoText (separator : Char) (moment : Moment) : Text :=
  moment.dateText ++ separator :: clockText moment.timeOfDay true ++ offsetText moment.offset

/-- The instant in UTC with milliseconds, the rest cut off; there is none outside the calendar. -/
def stamp (moment : Moment) : Option Text :=
  (ofInstant? moment.instant).map fun utc =>
    utc.dateText ++ 'T' :: minuteText utc.hour utc.minute ++ ':' :: Decimal.padded 2 utc.second ++
      '.' :: Decimal.padded 3 (utc.microsecond / 1000) ++ ['Z']

def joined (parts : List Text) : Text := ", ".toList.intercalate parts

/-- The parts of an offset as days, seconds and microseconds that are not zero. -/
def offsetParts (offset : Int) : Text :=
  let day := Int.fdiv offset microsPerDay
  let rest := (Int.fmod offset microsPerDay).toNat
  let seconds := rest / microsPerSecond
  let micros := rest % microsPerSecond
  joined
    ((if day = 0 then [] else ["days=".toList ++ Decimal.wholeText day]) ++
      (if seconds = 0 then [] else ["seconds=".toList ++ Decimal.digits seconds]) ++
      (if micros = 0 then [] else ["microseconds=".toList ++ Decimal.digits micros]))

def zoneText (offset : Int) : Text :=
  if offset = 0 then "datetime.timezone.utc".toList
  else "datetime.timezone(datetime.timedelta(".toList ++ offsetParts offset ++ "))".toList

/-- The form of a moment inside the text of a list or table: its fields, the seconds and
microseconds only when they are not zero. -/
def fieldsText (moment : Moment) : Text :=
  let time :=
    if moment.microsecond ≠ 0 then [moment.second, moment.microsecond]
    else if moment.second ≠ 0 then [moment.second]
    else []
  let numbers :=
    [moment.date.year, moment.date.month, moment.date.day, moment.hour, moment.minute] ++ time
  let zone :=
    match moment.offset with
    | none => []
    | some offset => ["tzinfo=".toList ++ zoneText offset]
  "datetime.datetime(".toList ++ joined (numbers.map Decimal.digits ++ zone) ++ [')']

end Moment

end TypeScriptGen.Calendar
