import TypeScriptGen.Calendar.Reader

/-!
# Reading moments in standard forms

The day is written `YYYY-MM-DD` or `YYYYMMDD`, or by its week as `YYYY-Www`,
`YYYYWww`, `YYYY-Www-D` or `YYYYWwwD`. Any one character parts it from the time of
day: hours, minutes and seconds of two digits each, all with colons between them
or all without, of which the latter two may be missing, and a fraction behind a
point or a comma. `Z` or a sign and an offset in the same forms may end it.

The forms are told apart by counting bytes. A character that the clock does not
understand is passed over where a zone follows it, and an offset of no whole
second is none.
-/

namespace TypeScriptGen.Calendar

/-- The bytes of a text, each as a character. -/
def byteText (text : Text) : Text :=
  (String.ofList text).toByteArray.toList.map fun byte => Char.ofNat byte.toNat

/-- What stands behind the end of a text. -/
def nul : Char := '\x00'

/-! ## Days -/

/-- The week of a year that holds its first Thursday begins on this day. -/
def firstMonday (year : Nat) : Nat :=
  let start := daysBefore year
  if 3 < start % 7 then start + 7 - start % 7 else start - start % 7

/-- The last week is the 53rd if the year starts on a Thursday, or on a Wednesday with a leap day. -/
def weekCount (year : Nat) : Nat :=
  let start := daysBefore year % 7
  if start = 3 || (start = 2 && isLeapYear year) then 53 else 52

def dayOfWeek? (year week day : Nat) : Option Day :=
  if 1 ≤ year && 1 ≤ week && week ≤ weekCount year && 1 ≤ day && day ≤ 7 then
    some (Day.ofNumber (firstMonday year + (week - 1) * 7 + (day - 1)))
  else none

/-- The number of bytes that the day takes up. Digits behind a week without dashes are counted: as
those of a time come in pairs, one more belongs to the day. -/
def dayLength (text : Text) : Option Nat :=
  let mark (place : Nat) : Char := text.getD place nul
  if text.length = 7 then some 7
  else if mark 4 = '-' then
    if mark 5 = 'W' then
      if mark 8 = '-' then
        if text.length = 9 then none else some (if (mark 10).isDigit then 8 else 10)
      else some 8
    else some 10
  else if mark 4 = 'W' then
    let digits := ((text.drop 7).takeWhile Char.isDigit).length
    some (if digits < 2 then 7 + digits else if digits % 2 = 1 then 7 else 8)
  else some 8

/-- Reads the dash between the parts of a day, if the form has dashes. -/
def readDash (dashes : Bool) (text : Text) : Option Text :=
  if dashes then readMark '-' text else some text

/-- Reads a week and a day of it, which is the first if it is not given. -/
def readWeekDay (year : Nat) (dashes : Bool) (text : Text) : Option Day := do
  let (week, rest) ← readDigits 2 text
  if rest.isEmpty then dayOfWeek? year week 1
  else
    let rest ← readDash dashes rest
    let (day, _) ← readDigits 1 rest
    dayOfWeek? year week day

def readStandardDay (text : Text) : Option Day := do
  let (year, rest) ← readDigits 4 text
  let dashes := rest.head? = some '-'
  let rest ← readDash dashes rest
  match readMark 'W' rest with
  | some rest => readWeekDay year dashes rest
  | none =>
      let (month, rest) ← readDigits 2 rest
      let rest ← readDash dashes rest
      let (day, rest) ← readDigits 2 rest
      if rest.isEmpty then some ⟨year, month, day⟩ else none

/-! ## Times -/

/-- What a clock shows, and whether something follows that it does not understand. -/
structure Reading where
  fields : List Nat
  micro : Nat
  more : Bool

/-- Reads the digits of a fraction; those after the sixth are passed over. -/
def readFraction (limit : Char) (text : Text) : Option Reading :=
  let kept := text.take 6
  if kept.all Char.isDigit then
    some ⟨[], fractionMicros kept, ((text.drop 6).dropWhile Char.isDigit).headD limit != nul⟩
  else none

/-- Reads at most `count` fields and a fraction. `limit` is the character behind the text, and
`colons` says whether there are colons, unless no field has been read yet. -/
def readFields (limit : Char) : Nat → Option Bool → Text → Option Reading
  | 0, _, text => readFraction limit text
  | count + 1, colons, text =>
      match readDigits 2 text with
      | none => none
      | some (field, rest) =>
          let reading : Option Reading :=
            match rest with
            | [] => some ⟨[], 0, limit != nul⟩
            | [c] => some ⟨[], 0, c != nul⟩
            | c :: next =>
                let colons := colons.getD (c == ':')
                if colons && c == ':' then readFields limit count (some colons) next
                else if c = '.' || c = ',' then readFraction limit next
                else if colons then none
                else readFields limit count (some colons) rest
          reading.map fun found => { found with fields := field :: found.fields }

def Reading.seconds (reading : Reading) : Nat :=
  let field (place : Nat) : Nat := reading.fields.getD place 0
  field 0 * 3600 + field 1 * 60 + field 2

def opensZone (c : Char) : Bool := c == '+' || c == '-' || c == 'Z'

/-- Reads the offset of a zone, from its sign or letter on. -/
def readZone : Text → Option (Option Int)
  | [] => some none
  | 'Z' :: rest => if rest.headD nul = nul then some (some 0) else none
  | sign :: rest =>
      match readFields nul 3 none rest with
      | none => none
      | some reading =>
          let size := reading.seconds * Moment.microsPerSecond + reading.micro
          if reading.more then none
          else if reading.seconds = 0 then some (some 0)
          else some (some (if sign = '-' then -(size : Int) else size))

/-- Reads the time of day and the offset; without a zone nothing else may follow. -/
def readStandardTime (text : Text) : Option (Reading × Option Int) := do
  let zone := text.dropWhile fun c => !opensZone c
  let reading ← readFields (zone.headD nul) 3 none (text.takeWhile fun c => !opensZone c)
  let offset ← readZone zone
  if zone.isEmpty && reading.more then none else some (reading, offset)

/-- The number of bytes of the character that starts with a byte. -/
def markLength (byte : Char) : Nat :=
  if byte.toNat < 0x80 then 1
  else if byte.toNat < 0xe0 then 2
  else if byte.toNat < 0xf0 then 3
  else 4

def Moment.ofStandard? (text : Text) : Option Moment := do
  let bytes := byteText text
  if bytes.length < 7 then none
  let length ← dayLength bytes
  let date ← readStandardDay (bytes.take length)
  let (reading, offset) ←
    match bytes.drop length with
    | [] => some (⟨[], 0, false⟩, none)
    | mark :: rest => readStandardTime (rest.drop (markLength mark - 1))
  let field (place : Nat) : Nat := reading.fields.getD place 0
  let moment := ⟨date, field 0, field 1, field 2, reading.micro, offset⟩
  if moment.isValid then some moment else none

end TypeScriptGen.Calendar
